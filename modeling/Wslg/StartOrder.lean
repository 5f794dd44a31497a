import Wslg.Lib.Prog
import Wslg.Startup
/-!
# What starts when

Whatever the calls answer, `main` launches weston, the RDP client, dbus and
pulseaudio in this order, each only if everything before went well, and the client
only once weston is ready. What weston and the client are told agrees.
-/

open Lib Lib.Environ

namespace Wslg.Wslgd

variable {W : Type} {host : Host W}

/-! ## What was answered -/

/-- The call was made when `launched` had been launched, and the answer of the host was as in `P`. -/
def StartSys.Met (t : StartSys W) (host : Host W) (launched : List StartEvent) (c : HostCall) (P : c.Answer → Prop) : Prop :=
  ∃ w, ⟨c, (host.perform c w).1, launched⟩ ∈ t.answers ∧ P (host.perform c w).1

section Met

variable {s t : StartSys W} {launched : List StartEvent} {c : HostCall} {P : c.Answer → Prop}

theorem StartSys.Met.mono (h : s.Met host launched c P) (hst : s.answers ⊆ t.answers) : t.Met host launched c P := by
  obtain ⟨w, hw, hp⟩ := h
  exact ⟨w, hst hw, hp⟩

theorem StartSys.Met.of_eq {a : c.Answer} (h : t.Met host launched c (· = a)) (hp : P a) : t.Met host launched c P := by
  obtain ⟨w, hw, ha⟩ := h
  exact ⟨w, hw, ha ▸ hp⟩

end Met

/-- `wslinfo` prints the ID and succeeds. -/
def PrintsVmId (os : Pipes) (vmId : CharString) : Prop :=
  ∃ out, os.popen c_wslinfo = some out ∧ os.pclose c_wslinfo = 0 ∧ vmId = readOutput out.length out

/-- The two paths that are translated: the profile of the user and the folder of the installation. -/
def Translates (environ : List CharString) (path : CharString) : Prop :=
  getenv eqSign environ c_userProfileEnv = some path ∨
    path = (getenv eqSign environ c_installPathEnv).getD c_defaultInstallPath

/-! ## The plan -/

/-- What is known when weston is launched. -/
structure Plan where
  environ : List CharString
  vsock : Vsock
  options : WestonOptions
  vmId : CharString
  installPath : Option CharString
  sharedMemory : Option CharString

/-- What turns out later. -/
structure Later where
  westonPid : pid_t
  fonts : Bool
  exePath : CharString
  plugin : CharString
  clientPid : pid_t
  dbusPid : pid_t
  pulseaudioLog : Option CharString
  pulseaudioPid : pid_t

namespace Plan

variable (p : Plan) (l : Later)

def weston : ProcessInfo := westonProcess p.environ p.vsock p.options.westonArgs

def client : ProcessInfo := ClientOptions.process
  ⟨l.exePath, p.vmId, p.vsock.address.svm_port, l.plugin, p.sharedMemory, p.installPath.getD c_defaultInstallPath,
    p.options.isRdpDesktopShell⟩

/-- Stage by stage. -/
def stages : List (List StartEvent) := [
  [.launch l.westonPid p.weston], [.ready], if l.fonts then [.fontMonitor] else [], [.launch l.clientPid (p.client l)],
  [.launch l.dbusPid dbusProcess], [.launch l.pulseaudioPid (pulseaudioProcess l.pulseaudioLog)], [.run]]

def events : List StartEvent := (p.stages l).flatten

/-- The plan rests on what the calls of the run answered before anything was launched. -/
structure Sound (host : Host W) (t : StartSys W) : Prop where
  root : t.Met host [] .geteuid (· = 0)
  vmId : p.vmId ≠ [] ∧ t.Met host [] .wslinfo (PrintsVmId · p.vmId)
  vsock : t.Met host [] .sockets (bindVsock · MAX_RESERVED_PORT = .ok p.vsock)
  installPath : getenv eqSign p.environ c_installPathEnv = p.installPath
  display : getenv eqSign p.environ WAYLAND_DISPLAY = some p.options.display
  /-- The children know of the shared memory exactly if the client does. -/
  sharedMemory : getenv eqSign p.environ c_sharedMemoryMountPointEnv = p.sharedMemory.map fun _ => c_sharedMemoryMountPoint
  mounted : ∀ path, p.sharedMemory = some path → getenv eqSign p.environ c_sharedMemoryObDirectoryPathEnv = some path ∧
    t.Met host [] (.mount (bytes "wslg") c_sharedMemoryMountPoint) (· = true)

variable {p} in
theorem Sound.mono {s t : StartSys W} (h : p.Sound host s) (hst : s.answers ⊆ t.answers) : p.Sound host t where
  root := h.root.mono hst
  vmId := ⟨h.vmId.1, h.vmId.2.mono hst⟩
  vsock := h.vsock.mono hst
  installPath := h.installPath
  display := h.display
  sharedMemory := h.sharedMemory
  mounted path hpath := ⟨(h.mounted path hpath).1, (h.mounted path hpath).2.mono hst⟩

end Plan

/-! ## Calls that launch nothing -/

/-- Launches nothing. -/
structure Quiet (s t : StartSys W) : Prop where
  trace : t.trace = s.trace
  monitor : t.monitor = s.monitor
  answers : s.answers ⊆ t.answers

/-- Neither launches nor sets anything. -/
structure Still (s t : StartSys W) : Prop extends Quiet s t where
  environ : t.environ = s.environ

instance : Std.Refl (Quiet (W := W)) := ⟨fun _ => ⟨rfl, rfl, List.Subset.refl _⟩⟩
instance : IsTrans (StartSys W) Quiet :=
  ⟨fun _ _ _ h h' => ⟨h'.trace.trans h.trace, h'.monitor.trans h.monitor, List.Subset.trans h.answers h'.answers⟩⟩
instance : Std.Refl (Still (W := W)) := ⟨fun s => ⟨refl_of Quiet s, rfl⟩⟩
instance : IsTrans (StartSys W) Still :=
  ⟨fun _ _ _ h h' => ⟨trans_of Quiet h.toQuiet h'.toQuiet, h'.environ.trans h.environ⟩⟩

/-- What was answered since the last launch. -/
theorem StartSys.Met.quiet {s t : StartSys W} {c : HostCall} {P : c.Answer → Prop} (h : s.Met host s.trace c P)
    (hst : Quiet s t) : t.Met host t.trace c P := by
  rw [hst.trace]
  exact h.mono hst.answers

/-- No variable is unset. -/
def Keeping (s t : StartSys W) : Prop := Quiet s t ∧
  ∀ name, eqSign ∉ name → (getenv eqSign s.environ name).isSome → (getenv eqSign t.environ name).isSome

instance : Std.Refl (Keeping (W := W)) := ⟨fun s => ⟨refl_of Quiet s, fun _ _ h => h⟩⟩
instance : IsTrans (StartSys W) Keeping :=
  ⟨fun _ _ _ h h' => ⟨trans_of Quiet h.1 h'.1, fun name hname hs => h'.2 name hname (h.2 name hname hs)⟩⟩

theorem Still.keeping {s t : StartSys W} (h : Still s t) : Keeping s t := ⟨h.toQuiet, fun _ _ hs => h.environ ▸ hs⟩

/-- The behavior is undefined only if `wslpath` printed nothing but newlines for one of the two paths. -/
def Expected (host : Host W) (e : Ended) (t : StartSys W) : Prop := e = .undefined →
  ∃ path launched, Translates t.environ path ∧ t.Met host launched (.wslpath path) (TranslateWindowsPath · path = .undefined)

theorem expected_exception (t : StartSys W) : Expected host .exception t := fun h => by cases h

section Calls

variable {α : Type} {s : StartSys W} {Q : α → StartSys W → Prop} {E : Ended → StartSys W → Prop}

theorem ends_call_bind {β : Type} {f : W → α × W} {g : α → StartM W β} {Q : β → StartSys W → Prop}
    (h : Ends (g (f s.world).1) { s with world := (f s.world).2 } Q E) : Ends (StartM.call f >>= g) s Q E :=
  Ends.bind_iff.2 h

theorem still_called (s : StartSys W) (w : W) : Still s { s with world := w } := ⟨⟨rfl, rfl, List.Subset.refl _⟩, rfl⟩

/-- Whatever the answer is, it is noted. -/
theorem ends_ask_bind {β : Type} {c : HostCall} {g : c.Answer → StartM W β} {Q : β → StartSys W → Prop}
    (h : ∀ a t, Still s t → t.Met host t.trace c (· = a) → Ends (g a) t Q E) : Ends (StartM.ask host c >>= g) s Q E :=
  Ends.bind_iff.2 (h _ _ ⟨⟨rfl, rfl, List.subset_append_left _ _⟩, rfl⟩ ⟨_, by simp, rfl⟩)

theorem ends_getenv_bind {β : Type} {name : CharString} {g : Option CharString → StartM W β} {Q : β → StartSys W → Prop}
    (h : Ends (g (getenv eqSign s.environ name)) s Q E) : Ends (StartM.getenv name >>= g) s Q E :=
  Ends.bind_iff.2 h

theorem ends_environ_bind {β : Type} {g : List CharString → StartM W β} {Q : β → StartSys W → Prop}
    (h : Ends (g s.environ) s Q E) : Ends (StartM.environ >>= g) s Q E :=
  Ends.bind_iff.2 h

theorem still_call (f : W → α × W) : Moves Still (Expected host) (StartM.call f) := fun s => still_called s _

theorem still_getenv (name : CharString) : Moves Still (Expected host) (StartM.getenv name : StartM W (Option CharString)) :=
  fun s => refl_of Still s

theorem still_throwIf (c : Bool) : Moves Still (Expected host) (StartM.throwIf c : StartM W PUnit) :=
  Moves.ite (fun _ => Moves.throw expected_exception) fun _ => Moves.pure _

theorem still_must (f : W → Bool × W) : Moves Still (Expected host) (StartM.must f) :=
  (still_call f).bind fun _ => still_throwIf _

theorem ends_returnIf_bind {β : Type} {c : Bool} {status : Int} {g : PUnit → StartM W β} {Q : β → StartSys W → Prop}
    (hend : c = true → E (.returned status) s) (hgo : c = false → Ends (g ⟨⟩) s Q E) :
    Ends (StartM.returnIf c status >>= g) s Q E := by
  cases c with
  | true => exact hend rfl
  | false => exact hgo rfl

theorem still_orThrow (o : Option α) : Moves Still (Expected host) (StartM.orThrow o : StartM W α) := by
  cases o with
  | some a => exact Moves.pure a
  | none => exact Moves.throw expected_exception

theorem still_mustSome (f : W → Option α × W) : Moves Still (Expected host) (StartM.mustSome f) :=
  (still_call f).bind fun _ => still_orThrow _

theorem still_ask (c : HostCall) : Moves Still (Expected host) (StartM.ask host c) :=
  fun s => show Still s _ from ⟨⟨rfl, rfl, List.subset_append_left _ _⟩, rfl⟩

theorem still_GetEnvBool (name : CharString) (default : Bool) :
    Moves Still (Expected host) (GetEnvBool name default : StartM W Bool) := by
  refine (still_getenv name).bind fun s => ?_
  cases s with
  | none => exact Moves.pure _
  | some s =>
    exact Moves.ite (fun _ => Moves.pure _) fun _ => Moves.ite (fun _ => Moves.pure _) fun _ =>
      Moves.ite (fun _ => Moves.pure _) fun _ => Moves.ite (fun _ => Moves.pure _) fun _ => Moves.pure _

/-- Of one of the two paths. -/
theorem ends_translateWindowsPath {path : CharString} (h : Translates s.environ path) : Ends (translateWindowsPath host path) s
    (fun result t => Still s t ∧ t.Met host t.trace (.wslpath path) (TranslateWindowsPath · path = .path result))
    fun e t => Still s t ∧ Expected host e t := by
  refine ends_ask_bind fun os t ht hos => ?_
  cases htranslate : TranslateWindowsPath os path with
  | path result => exact Ends.pure_iff.2 ⟨ht, hos.of_eq htranslate⟩
  | exception => exact ⟨ht, expected_exception _⟩
  | undefined => exact ⟨ht, fun _ => ⟨path, t.trace, ht.environ ▸ h, hos.of_eq htranslate⟩⟩

theorem still_makeDirectory (path : CharString) (owner : Option passwd) :
    Moves Still (Expected host) (makeDirectory host path owner) := by
  refine (still_must _).bind fun _ => ?_
  cases owner with
  | some user => exact (still_must _).bind fun _ => still_must _
  | none => exact (Moves.pure _).bind fun _ => still_must _

theorem still_mountFiles : Moves Still (Expected host) (mountFiles host) :=
  (still_must _).bind fun _ => (still_must _).bind fun _ => (still_must _).bind fun _ => still_must _

/-- There is a directory only if the memory was mounted. -/
theorem ends_mountSharedMemory (s : StartSys W) : Ends (mountSharedMemory host) s
    (fun mounted t => Still s t ∧ ∀ path, mounted = some path →
      getenv eqSign s.environ c_sharedMemoryObDirectoryPathEnv = some path ∧
        t.Met host t.trace (.mount (bytes "wslg") c_sharedMemoryMountPoint) (· = true))
    fun e t => Still s t ∧ Expected host e t := by
  refine ends_getenv_bind ?_
  cases hpath : getenv eqSign s.environ c_sharedMemoryObDirectoryPathEnv with
  | none => exact Ends.pure_iff.2 ⟨refl_of Still s, fun _ h => by cases h⟩
  | some path =>
    refine (still_must _ s).bind (fun _ t ht => ends_ask_bind fun mounted u hu hmount => ?_) fun _ _ h => h
    replace hu := trans_of Still ht hu
    split
    · rename_i hmounted
      refine (still_must _ u).bind (fun _ v hv => Ends.pure_iff.2 ⟨trans_of Still hu hv, fun _ h => ?_⟩) fun _ v hv =>
        ⟨trans_of Still hu hv.1, hv.2⟩
      exact ⟨h, (hmount.of_eq hmounted).quiet hv.toQuiet⟩
    · exact Ends.pure_iff.2 ⟨hu, fun _ h => by cases h⟩

theorem still_SetupReadyNotify (path : CharString) : Moves Still (Expected host) (SetupReadyNotify host path) :=
  (still_call _).bind fun _ => (still_mustSome _).bind fun _ => (still_must _).bind fun _ =>
    (still_must _).bind fun _ => Moves.pure _

end Calls

/-! ## Before the launches -/

theorem ends_GetVmId (s : StartSys W) : Ends (GetVmId host) s
    (fun vmId t => Still s t ∧ t.Met host t.trace .wslinfo (PrintsVmId · vmId)) fun e t => Still s t ∧ Expected host e t := by
  refine ends_ask_bind fun os t ht hos => ?_
  cases hout : os.popen c_wslinfo with
  | none => exact ⟨ht, expected_exception _⟩
  | some out =>
    by_cases hstatus : os.pclose c_wslinfo = 0
    · simp only [hstatus, ne_eq, not_true_eq_false, decide_false]
      exact ⟨ht, hos.of_eq ⟨out, hout, hstatus, rfl⟩⟩
    · simp only [hstatus, ne_eq, not_false_eq_true, decide_true]
      exact ⟨ht, expected_exception _⟩

theorem ends_checkHost (s : StartSys W) : Ends (checkHost host) s
    (fun vmId t => Still s t ∧ (vmId ≠ [] ∧ t.Met host t.trace .wslinfo (PrintsVmId · vmId)) ∧
      t.Met host t.trace .geteuid (· = 0))
    fun e t => Still s t ∧ Expected host e t := by
  have hreturned : ∀ status (t : StartSys W), Expected host (.returned status) t := fun _ _ h => by cases h
  refine ends_ask_bind fun euid t ht heuid => ends_returnIf_bind (fun _ => ⟨ht, hreturned 1 _⟩) fun hroot => ?_
  refine (ends_GetVmId t).bind (fun vmId u hu => ?_) fun _ _ h => ⟨trans_of Still ht h.1, h.2⟩
  obtain ⟨hu, hprints⟩ := hu
  refine ends_returnIf_bind (fun _ => ⟨trans_of Still ht hu, hreturned 1 _⟩) fun hid => ?_
  refine Ends.pure_iff.2 ⟨trans_of Still ht hu, ⟨by simpa using hid, hprints⟩, ?_⟩
  exact (heuid.of_eq (by simpa using hroot)).quiet hu.toQuiet

/-! ### The environment -/

theorem keeping_of_still {α : Type} {x : StartM W α} (h : Moves Still (Expected host) x) : Moves Keeping (Expected host) x :=
  h.mono fun _ _ => Still.keeping

/-- What `setenv` answers and what it does. -/
theorem ends_setenv {name value : CharString} {override : Bool} (s : StartSys W) : Ends (setenv host name value override) s
    (fun ok t => Quiet s t ∧ t.environ = if ok then Environ.setenv eqSign name value override s.environ else s.environ)
    fun _ _ => False := by
  unfold setenv
  split
  · exact Ends.pure_iff.2 ⟨refl_of Quiet s, rfl⟩
  · refine ends_call_bind ?_
    cases (host.setenv name value s.world).1
    · exact ⟨(still_called s _).toQuiet, rfl⟩
    · exact ⟨⟨rfl, rfl, List.Subset.refl _⟩, rfl⟩

theorem ends_unsetenv {name : CharString} (s : StartSys W) : Ends (unsetenv host name) s
    (fun ok t => Quiet s t ∧ t.environ = if ok then Environ.unsetenv eqSign s.environ name else s.environ)
    fun _ _ => False := by
  refine ends_call_bind ?_
  cases (host.unsetenv name s.world).1
  · exact ⟨(still_called s _).toQuiet, rfl⟩
  · exact ⟨⟨rfl, rfl, List.Subset.refl _⟩, rfl⟩

theorem keeping_setenv {name value : CharString} {override : Bool} :
    Moves Keeping (Expected host) (setenv host name value override) := by
  intro s
  by_cases hname : name = [] ∨ eqSign ∈ name
  · unfold setenv
    rw [if_pos (by simpa using hname)]
    exact refl_of Keeping s
  · refine (ends_setenv s).mono (fun ok t ht => ⟨ht.1, fun other hother hs => ?_⟩) fun _ _ h => h.elim
    rw [ht.2]
    cases ok with
    | false => exact hs
    | true =>
      rw [if_pos rfl, getenv_setenv (fun h => hname (.inr h)) hother]
      split
      · rfl
      · exact hs

/-- A variable that could not be set is an exception. -/
theorem ends_setVariable (v : EnvVar) (s : StartSys W) : Ends (setVariable host v) s
    (fun _ t => Keeping s t ∧ (getenv eqSign t.environ v.name).isSome) fun e t => Keeping s t ∧ Expected host e t := by
  refine ((ends_setenv s).and (keeping_setenv s)).bind (fun ok t ht => ?_) fun _ _ h => h.1.elim
  obtain ⟨⟨-, henv⟩, hkeeping⟩ := ht
  cases ok with
  | false => exact ⟨hkeeping, expected_exception _⟩
  | true =>
    refine ⟨hkeeping, ?_⟩
    rw [henv, if_pos rfl, getenv_setenv_self]
    rfl

theorem ends_setVariables (vs : List EnvVar) (hvs : ∀ v ∈ vs, eqSign ∉ v.name) (s : StartSys W) :
    Ends (vs.forM (setVariable host)) s (fun _ t => Keeping s t ∧ ∀ v ∈ vs, (getenv eqSign t.environ v.name).isSome)
      fun e t => Keeping s t ∧ Expected host e t := by
  induction vs generalizing s with
  | nil => exact ⟨refl_of Keeping s, by simp⟩
  | cons v vs ih =>
    obtain ⟨hv, hvs⟩ := List.forall_mem_cons.1 hvs
    refine (ends_setVariable v s).bind (fun _ t ht => ?_) fun _ _ h => h
    refine (ih hvs t).mono (fun _ u hu => ⟨trans_of Keeping ht.1 hu.1, ?_⟩) fun _ _ h => ⟨trans_of Keeping ht.1 h.1, h.2⟩
    exact List.forall_mem_cons.2 ⟨hu.1.2 v.name hv ht.2, hu.2⟩

theorem keeping_SetupOptionalEnv : Moves Keeping (Expected host) (SetupOptionalEnv host) := by
  have hkey : ∀ key, Moves Keeping (Expected host) (setKey host key) := by
    intro key
    obtain ⟨name, value⟩ := key
    cases value with
    | none => exact Moves.pure _
    | some value => exact keeping_setenv.bind fun _ => Moves.pure _
  have hpath : Moves Keeping (Expected host) (configFilePath host) := by
    intro s
    refine ends_getenv_bind ?_
    cases hprofile : getenv eqSign s.environ c_userProfileEnv with
    | none => exact Ends.pure_iff.2 (refl_of Keeping s)
    | some profile =>
      refine (ends_translateWindowsPath (.inl hprofile)).bind (fun _ t ht => Ends.pure_iff.2 ht.1.keeping) fun _ t ht => ?_
      exact ⟨ht.1.keeping, ht.2⟩
  exact Moves.ite (fun _ => hpath.bind fun _ => (keeping_of_still (still_ask _)).bind fun keys => Moves.forM hkey keys)
    fun _ => Moves.pure _

/-- The names do not depend on the account. -/
def envNames : List CharString := (envVariables ⟨⟨[], 0, 0, []⟩, []⟩).map (·.name)

theorem map_envVariables (a : Account) : (envVariables a).map (·.name) = envNames := rfl

theorem envVariables_names (a : Account) : ∀ v ∈ envVariables a, eqSign ∉ v.name := by
  have hnames : ∀ name ∈ envNames, eqSign ∉ name := by decide +kernel
  intro v hv
  exact hnames v.name (map_envVariables a ▸ List.mem_map_of_mem hv)

/-- There is a display. -/
theorem ends_setUpEnvironment (a : Account) (s : StartSys W) : Ends (setUpEnvironment host a) s
    (fun _ t => Keeping s t ∧ (getenv eqSign t.environ WAYLAND_DISPLAY).isSome) fun e t => Keeping s t ∧ Expected host e t := by
  have hrest : Moves Keeping (Expected host) (SetupOptionalEnv host >>= fun _ =>
      GetEnvBool (bytes "WSLG_LOG_KMSG") false >>= fun kmsg =>
      if kmsg then StartM.must (host.chmod (bytes "/dev/kmsg") 0o666) else pure ⟨⟩) :=
    keeping_SetupOptionalEnv.bind fun _ => (keeping_of_still (still_GetEnvBool _ _)).bind fun _ =>
      Moves.ite (fun _ => keeping_of_still (still_must _)) fun _ => Moves.pure _
  refine (ends_setVariables (envVariables a) (envVariables_names a) s).bind (fun _ t ht => ?_) fun _ _ h => h
  have hdisplay : (getenv eqSign t.environ WAYLAND_DISPLAY).isSome :=
    ht.2 ⟨WAYLAND_DISPLAY, bytes "wayland-0", false⟩ (by simp [envVariables])
  refine (hrest t).mono (fun _ u hu => ⟨trans_of Keeping ht.1 hu, hu.2 _ (by decide +kernel) hdisplay⟩) fun _ u hu =>
    ⟨trans_of Keeping ht.1 hu.1, hu.2⟩

theorem eqSign_not_mem_sharedMemory : eqSign ∉ c_sharedMemoryMountPointEnv := by decide +kernel

/-- The variable is set if the memory is there, and else it is not; no other variable changes. -/
def Exported (s : StartSys W) (sharedMemory : Option CharString) (t : StartSys W) : Prop := Quiet s t ∧
  ∀ name, eqSign ∉ name → getenv eqSign t.environ name = if name = c_sharedMemoryMountPointEnv then
    sharedMemory.map fun _ => c_sharedMemoryMountPoint else getenv eqSign s.environ name

theorem ends_exportSharedMemory (mounted : Option CharString) (s : StartSys W) : Ends (exportSharedMemory host mounted) s
    (fun sharedMemory t => Exported s sharedMemory t ∧ ∀ path, sharedMemory = some path → mounted = some path)
    fun e t => Quiet s t ∧ Expected host e t := by
  have hunset : ∀ t, Quiet s t → t.environ = s.environ → Ends (unsetenv host c_sharedMemoryMountPointEnv >>= fun ok =>
      StartM.throwIf (!ok) >>= fun _ => (pure none : StartM W (Option CharString))) t
      (fun sharedMemory t => Exported s sharedMemory t ∧ ∀ path, sharedMemory = some path → mounted = some path)
      fun e t => Quiet s t ∧ Expected host e t := by
    intro t ht henv
    refine (ends_unsetenv t).bind (fun ok u hu => ?_) fun _ _ h => h.elim
    have hquiet : Quiet s u := trans_of Quiet ht hu.1
    cases ok with
    | false => exact ⟨hquiet, expected_exception _⟩
    | true =>
      refine Ends.pure_iff.2 ⟨⟨hquiet, fun name hname => ?_⟩, fun _ h => by cases h⟩
      rw [hu.2, if_pos rfl, henv, getenv_unsetenv eqSign_not_mem_sharedMemory hname]
      rfl
  unfold exportSharedMemory
  cases mounted with
  | none => exact hunset s (refl_of Quiet s) rfl
  | some path =>
    refine (ends_setenv s).bind (fun ok t ht => ?_) fun _ _ h => h.elim
    cases ok with
    | false => exact hunset t ht.1 ht.2
    | true =>
      refine Ends.pure_iff.2 ⟨⟨ht.1, fun name hname => ?_⟩, fun _ h => h⟩
      rw [ht.2, if_pos rfl, getenv_setenv eqSign_not_mem_sharedMemory hname]
      rfl

/-! ### The preparation -/

theorem ends_listenForRdp (s : StartSys W) : Ends (listenForRdp host) s
    (fun v t => Still s t ∧ t.Met host t.trace .sockets (bindVsock · MAX_RESERVED_PORT = .ok v))
    fun e t => Still s t ∧ Expected host e t := by
  refine ends_ask_bind fun sockets t ht hsockets => ?_
  cases hbind : bindVsock sockets MAX_RESERVED_PORT with
  | error errno => exact ⟨ht, expected_exception _⟩
  | ok v =>
    have hlimit : Moves Still (Expected host) (raiseLimit host) := (still_mustSome _).bind fun _ => still_must _
    refine (still_must _ t).bind (fun _ u hu => ?_) fun _ u hu => ⟨trans_of Still ht hu.1, hu.2⟩
    refine (hlimit u).bind (fun _ u' hu' => ?_) fun _ u' hu' => ⟨trans_of Still ht (trans_of Still hu hu'.1), hu'.2⟩
    replace hu' := trans_of Still hu hu'
    exact Ends.pure_iff.2 ⟨trans_of Still ht hu', (hsockets.of_eq hbind).quiet hu'.toQuiet⟩

/-- What `prepare` returns is there. -/
structure Prepared (host : Host W) (r : CharString × Option CharString × Vsock × Option CharString) (t : StartSys W) : Prop where
  root : t.Met host t.trace .geteuid (· = 0)
  vmId : r.1 ≠ [] ∧ t.Met host t.trace .wslinfo (PrintsVmId · r.1)
  installPath : getenv eqSign t.environ c_installPathEnv = r.2.1
  vsock : t.Met host t.trace .sockets (bindVsock · MAX_RESERVED_PORT = .ok r.2.2.1)
  display : (getenv eqSign t.environ WAYLAND_DISPLAY).isSome
  sharedMemory : getenv eqSign t.environ c_sharedMemoryMountPointEnv = r.2.2.2.map fun _ => c_sharedMemoryMountPoint
  mounted : ∀ path, r.2.2.2 = some path → getenv eqSign t.environ c_sharedMemoryObDirectoryPathEnv = some path ∧
    t.Met host t.trace (.mount (bytes "wslg") c_sharedMemoryMountPoint) (· = true)

/-- Nothing is launched. -/
theorem ends_prepare (s : StartSys W) : Ends (prepare host) s (fun r t => Quiet s t ∧ Prepared host r t)
    fun e t => Quiet s t ∧ Expected host e t := by
  refine ends_ask_bind fun o t₀ ht₀ _ => (still_orThrow o t₀).bind (fun a t ht => ?_) fun _ _ h =>
    ⟨(trans_of Still ht₀ h.1).toQuiet, h.2⟩
  replace ht := trans_of Still ht₀ ht
  refine (ends_setUpEnvironment a t).bind (fun _ u hu => ?_) fun _ u hu => ⟨trans_of Quiet ht.toQuiet hu.1.1, hu.2⟩
  obtain ⟨hkeeping, hdisplay⟩ := hu
  replace hkeeping := trans_of Quiet ht.toQuiet hkeeping.1
  refine (ends_checkHost u).bind (fun vmId v hv => ?_) fun _ v hv => ⟨trans_of Quiet hkeeping hv.1.toQuiet, hv.2⟩
  obtain ⟨hstill, hid, hroot⟩ := hv
  have hquiet := trans_of Quiet hkeeping hstill.toQuiet
  suffices h : Ends _ v (fun r t => Quiet v t ∧ Prepared host r t) fun e t => Quiet v t ∧ Expected host e t from
    h.mono (fun _ _ h => ⟨trans_of Quiet hquiet h.1, h.2⟩) fun _ _ h => ⟨trans_of Quiet hquiet h.1, h.2⟩
  -- from here to the shared memory no variable is set
  have hthen : ∀ {α β : Type} {x : StartM W α} {f : α → StartM W β} {Q : β → StartSys W → Prop} {t : StartSys W},
      Moves Still (Expected host) x → Still v t →
      (∀ a u, Still v u → Ends (f a) u Q fun e u => Quiet v u ∧ Expected host e u) →
      Ends (x >>= f) t Q fun e u => Quiet v u ∧ Expected host e u := by
    intro α β x f Q t hx ht hf
    refine (hx t).bind (fun a u hu => hf a u (trans_of Still ht hu)) fun _ u hu => ?_
    exact ⟨(trans_of Still ht hu.1).toQuiet, hu.2⟩
  refine ends_getenv_bind (hthen still_mountFiles (refl_of Still v) fun _ t ht => hthen (still_makeDirectory _ _) ht fun _ t ht => ?_)
  refine hthen (still_makeDirectory _ _) ht fun _ t ht => hthen (still_makeDirectory _ _) ht fun _ t ht => ?_
  refine (ends_mountSharedMemory t).bind (fun mounted t₁ h₁ => ?_) fun _ u hu => ⟨(trans_of Still ht hu.1).toQuiet, hu.2⟩
  obtain ⟨h₁, hmounted⟩ := h₁
  replace ht₁ := trans_of Still ht h₁
  refine (ends_listenForRdp t₁).bind (fun vsock u hu => ?_) fun _ u hu => ⟨(trans_of Still ht₁ hu.1).toQuiet, hu.2⟩
  obtain ⟨hu₁, hvsock⟩ := hu
  have hu := trans_of Still ht₁ hu₁
  refine (ends_exportSharedMemory mounted u).bind (fun sharedMemory t' hexport => ?_) fun _ t ht =>
    ⟨trans_of Quiet hu.toQuiet ht.1, ht.2⟩
  obtain ⟨⟨hquiet', hexport⟩, hsame⟩ := hexport
  have hother : ∀ name, eqSign ∉ name → name ≠ c_sharedMemoryMountPointEnv →
      getenv eqSign t'.environ name = getenv eqSign v.environ name := fun name hname hne => by
    rw [hexport name hname, if_neg hne, hu.environ]
  have hall := trans_of Quiet hu.toQuiet hquiet'
  refine Ends.pure_iff.2 ⟨hall, ?_⟩
  exact {
    root := hroot.quiet hall
    vmId := ⟨hid.1, hid.2.quiet hall⟩
    installPath := hother _ (by decide +kernel) (by decide +kernel)
    vsock := hvsock.quiet hquiet'
    display := by
      rw [hother _ (by decide +kernel) (by decide +kernel), hstill.environ]
      exact hdisplay
    sharedMemory := (hexport _ eqSign_not_mem_sharedMemory).trans (if_pos rfl)
    mounted := fun path hpath => by
      obtain ⟨hdir, hmet⟩ := hmounted path (hsame path hpath)
      rw [ht.environ] at hdir
      exact ⟨(hother _ (by decide +kernel) (by decide +kernel)).trans hdir,
        hmet.quiet (trans_of Quiet hu₁.toQuiet hquiet')⟩ }

/-! ## The launches -/

theorem ends_westonOptions (s : StartSys W) (hdisplay : (getenv eqSign s.environ WAYLAND_DISPLAY).isSome) :
    Ends (westonOptions host) s (fun r t => Still s t ∧ getenv eqSign s.environ WAYLAND_DISPLAY = some r.1.display)
      fun e t => Still s t ∧ Expected host e t := by
  refine ends_getenv_bind ?_
  obtain ⟨display, hdisplay⟩ := Option.isSome_iff_exists.1 hdisplay
  rw [hdisplay]
  refine (still_GetEnvBool _ _ s).bind (fun desktop t ht => ?_) fun _ _ h => h
  refine (still_getenv _ t).bind (fun log t₁ ht₁ => ?_) fun _ _ h => ⟨trans_of Still ht h.1, h.2⟩
  have ht₁ := trans_of Still ht ht₁
  refine (still_SetupReadyNotify _ t₁).bind (fun fd t₂ ht₂ => ?_) fun _ _ h => ⟨trans_of Still ht₁ h.1, h.2⟩
  exact ⟨trans_of Still (trans_of Still ht₁ ht₂) (still_called t₂ _), rfl⟩

theorem ends_launch (info : ProcessInfo) (s : StartSys W) : Ends (launch host info) s
    (fun _ t => (t.environ = s.environ ∧ s.answers ⊆ t.answers) ∧ ∃ childPid,
      LaunchProcess s.monitor childPid info = some t.monitor ∧ t.trace = s.trace ++ [.launch childPid info]) fun e t => Still s t ∧ Expected host e t := by
  refine ends_call_bind ?_
  have hcalled := still_called s (host.fork s.world).2
  unfold Ends
  dsimp only
  cases hlaunch : LaunchProcess s.monitor (host.fork s.world).1 info with
  | none => exact ⟨hcalled, expected_exception _⟩
  | some m => exact ⟨⟨rfl, hcalled.answers⟩, _, hlaunch, rfl⟩

/-- The first `n` stages of a sound plan are done. -/
structure Reached (host : Host W) (p : Plan) (l : Later) (n : ℕ) (t : StartSys W) : Prop where
  sound : p.Sound host t
  environ : t.environ = p.environ
  trace : t.trace = ((p.stages l).take n).flatten

theorem Reached.still {p : Plan} {l : Later} {n : ℕ} {s t : StartSys W} (h : Reached host p l n s) (ht : Still s t) :
    Reached host p l n t :=
  ⟨h.sound.mono ht.answers, ht.environ.trans h.environ, ht.trace.trans h.trace⟩

theorem Reached.prefix {p : Plan} {l : Later} {n : ℕ} {t : StartSys W} (h : Reached host p l n t) : t.trace <+: p.events l := by
  refine ⟨((p.stages l).drop n).flatten, ?_⟩
  rw [h.trace, ← List.flatten_append, List.take_append_drop]
  rfl

/-- The loop has not begun. -/
theorem Reached.unfinished {p : Plan} {l : Later} {n : ℕ} {t : StartSys W} (h : Reached host p l n t) (hn : n ≤ 6) :
    t.trace ≠ p.events l := by
  have hrun : .run ∉ ((p.stages l).take 6).flatten := by
    cases hfonts : l.fonts <;> simp [Plan.stages, hfonts]
  intro heq
  have hmem : .run ∈ t.trace := heq ▸ by simp [Plan.events, Plan.stages]
  rw [h.trace] at hmem
  refine hrun ?_
  obtain ⟨stage, hstage, hmem⟩ := List.mem_flatten.1 hmem
  exact List.mem_flatten.2 ⟨stage, List.take_subset_take_left _ hn hstage, hmem⟩

section Stages

variable {p : Plan} {l : Later} {s : StartSys W}

theorem ends_launchWeston (notifyFd : Nat) (h : Reached host p l 0 s) : Ends (launchWeston host p.vsock p.options notifyFd) s
    (fun _ t => ∃ l, Reached host p l 2 t) fun e t => (∃ l, ∃ n ≤ 6, Reached host p l n t) ∧ Expected host e t := by
  refine ends_environ_bind ?_
  rw [h.environ]
  refine (ends_launch p.weston s).bind (fun _ t ht => ?_) fun _ t ht => ⟨⟨l, 0, by omega, h.still ht.1⟩, ht.2⟩
  obtain ⟨⟨henv, hasked⟩, pid, -, htrace⟩ := ht
  have h₁ : Reached host p { l with westonPid := pid } 1 t :=
    ⟨h.sound.mono hasked, henv.trans h.environ, by rw [htrace, h.trace]; rfl⟩
  refine (still_must _ t).bind (fun _ u hu => ?_) fun _ u hu => ⟨⟨_, 1, by omega, h₁.still hu.1⟩, hu.2⟩
  have h₂ := h₁.still hu
  refine ⟨{ l with westonPid := pid }, h₂.sound.mono (List.Subset.refl _), h₂.environ, ?_⟩
  show u.trace ++ [.ready] = _
  rw [h₂.trace]
  rfl

theorem ends_startFontMonitor (h : Reached host p l 2 s) : Ends (startFontMonitor host) s (fun _ t => ∃ l, Reached host p l 3 t)
    fun e t => (∃ l, ∃ n ≤ 6, Reached host p l n t) ∧ Expected host e t := by
  refine (still_GetEnvBool _ _ s).bind (fun fonts t ht => ?_) fun _ t ht => ⟨⟨l, 2, by omega, h.still ht.1⟩, ht.2⟩
  have ht := h.still ht
  cases fonts with
  | false => exact ⟨{ l with fonts := false }, ht.sound, ht.environ, ht.trace⟩
  | true =>
    refine ⟨{ l with fonts := true }, ht.sound.mono (List.Subset.refl _), ht.environ, ?_⟩
    show t.trace ++ [.fontMonitor] = _
    rw [ht.trace]
    rfl

/-- In the folder of the installation. -/
theorem ends_rdpClientExePath {path : CharString} (h : Translates s.environ path) : Ends (rdpClientExePath host path) s
    (fun _ => Still s) fun e t => Still s t ∧ Expected host e t := by
  refine (still_GetEnvBool _ _ s).bind (fun isUseMstsc t ht => ?_) fun _ _ h => h
  split
  · refine (ends_translateWindowsPath (ht.environ ▸ h)).bind (fun result u hu => ?_) fun _ u hu => ⟨trans_of Still ht hu.1, hu.2⟩
    refine ends_call_bind ?_
    have hcalled : ∀ w, Still s { u with world := w } := fun w =>
      trans_of Still (trans_of Still ht hu.1) (still_called u w)
    split
    · exact Ends.pure_iff.2 (hcalled _)
    · exact Ends.pure_iff.2 (hcalled _)
  · exact Ends.pure_iff.2 ht

theorem still_wslDvcPlugin (present : Bool) : Moves Still (Expected host) (wslDvcPlugin present : StartM W CharString) :=
  (still_GetEnvBool _ _).bind fun _ => Moves.ite (fun _ => Moves.pure _) fun _ =>
    Moves.ite (fun _ => Moves.pure _) fun _ => Moves.pure _

/-- A launch is the next stage. -/
theorem Reached.launch {n : ℕ} {info : ProcessInfo} (h : Reached host p l n s) (hn : n ≤ 6)
    (hl : ∀ pid, ∃ l', ((p.stages l').take (n + 1)).flatten = ((p.stages l).take n).flatten ++ [.launch pid info]) :
    Ends (Wslgd.launch host info) s (fun _ t => ∃ l, Reached host p l (n + 1) t) fun e t =>
      (∃ l, ∃ n ≤ 6, Reached host p l n t) ∧ Expected host e t := by
  refine (ends_launch info s).mono (fun _ t ht => ?_) fun _ t ht => ⟨⟨l, n, hn, h.still ht.1⟩, ht.2⟩
  obtain ⟨⟨henv, hasked⟩, pid, -, htrace⟩ := ht
  obtain ⟨l', hl'⟩ := hl pid
  exact ⟨l', h.sound.mono hasked, henv.trans h.environ, by rw [htrace, h.trace, hl']⟩

theorem ends_launchClient (h : Reached host p l 3 s) :
    Ends (launchClient host p.vmId p.installPath p.vsock p.options.isRdpDesktopShell p.sharedMemory) s
      (fun _ t => ∃ l, Reached host p l 4 t) fun e t => (∃ l, ∃ n ≤ 6, Reached host p l n t) ∧ Expected host e t := by
  have hpath : Translates s.environ (p.installPath.getD c_defaultInstallPath) :=
    .inr (by rw [h.environ, h.sound.installPath])
  refine (ends_rdpClientExePath hpath).bind (fun exePath t ht => ?_) fun _ t ht => ⟨⟨l, 3, by omega, h.still ht.1⟩, ht.2⟩
  have h := h.still ht
  refine (still_wslDvcPlugin _ t).bind (fun plugin u hu => ?_) fun _ u hu => ⟨⟨l, 3, by omega, h.still hu.1⟩, hu.2⟩
  refine (h.still hu).launch (by omega) fun pid => ?_
  exact ⟨{ l with exePath := exePath, plugin := plugin, clientPid := pid }, by simp [Plan.stages, Plan.client]⟩

theorem ends_launchDbus (h : Reached host p l 4 s) : Ends (launch host dbusProcess) s (fun _ t => ∃ l, Reached host p l 5 t)
    fun e t => (∃ l, ∃ n ≤ 6, Reached host p l n t) ∧ Expected host e t :=
  h.launch (by omega) fun pid => ⟨{ l with dbusPid := pid }, by simp [Plan.stages, Plan.client]⟩

theorem ends_launchPulseaudio (h : Reached host p l 5 s) : Ends (launchPulseaudio host) s (fun _ t => ∃ l, Reached host p l 6 t)
    fun e t => (∃ l, ∃ n ≤ 6, Reached host p l n t) ∧ Expected host e t := by
  refine ends_getenv_bind (h.launch (by omega) fun pid => ?_)
  exact ⟨{ l with pulseaudioLog := getenv eqSign s.environ (bytes "WSLG_PULSEAUDIO_LOG_PATH"), pulseaudioPid := pid },
    by simp [Plan.stages, Plan.client]⟩

end Stages

/-! ## The order -/

/-- Either nothing was launched, or the launches follow a sound plan, up to the loop if `main` gets there. -/
def Follows (host : Host W) (started : Bool) (t : StartSys W) : Prop :=
  (started = false ∧ t.trace = []) ∨ ∃ (p : Plan) (l : Later), p.Sound host t ∧ t.environ = p.environ ∧
    t.trace <+: p.events l ∧ (started = true ↔ t.trace = p.events l)

theorem ends_start (host : Host W) (w : W) (environ : List CharString) : Ends (start host) (.begin w environ)
    (fun _ t => Follows host true t) fun e t => Follows host false t ∧ Expected host e t := by
  refine (ends_prepare (.begin w environ)).bind (fun r t ht => ?_) fun _ t ht => ⟨.inl ⟨rfl, ht.1.trace⟩, ht.2⟩
  obtain ⟨hquiet, hprepared⟩ := ht
  refine (ends_westonOptions t hprepared.display).bind (fun o t₁ ht₁ => ?_) fun _ t₁ ht₁ =>
    ⟨.inl ⟨rfl, ht₁.1.trace.trans hquiet.trace⟩, ht₁.2⟩
  obtain ⟨hstill, hdisplay⟩ := ht₁
  let p : Plan := ⟨t.environ, r.2.2.1, o.1, r.1, r.2.1, r.2.2.2⟩
  have hsound : p.Sound host t := by
    obtain ⟨hroot, hid, hinstall, hvsock, -, hmemory, hmounted⟩ := hprepared
    have hnone : t.trace = [] := hquiet.trace
    simp only [hnone] at hroot hid hvsock hmounted
    exact ⟨hroot, hid, hvsock, hinstall, hdisplay, hmemory, hmounted⟩
  have hfails : ∀ (e : Ended) (u : StartSys W), (∃ l, ∃ n ≤ 6, Reached host p l n u) ∧ Expected host e u →
      Follows host false u ∧ Expected host e u := by
    rintro e u ⟨⟨l, n, hn, h⟩, he⟩
    exact ⟨.inr ⟨p, l, h.sound, h.environ, h.prefix, iff_of_false Bool.false_ne_true (h.unfinished hn)⟩, he⟩
  have h₀ : Reached host p ⟨0, false, [], [], 0, 0, none, 0⟩ 0 t₁ :=
    ⟨hsound.mono hstill.answers, hstill.environ, hstill.trace.trans hquiet.trace⟩
  refine (ends_launchWeston o.2 h₀).bind (fun _ t₂ ⟨_, h₂⟩ => ?_) hfails
  refine (ends_startFontMonitor h₂).bind (fun _ t₃ ⟨_, h₃⟩ => ?_) hfails
  refine (ends_launchClient h₃).bind (fun _ t₄ ⟨_, h₄⟩ => ?_) hfails
  refine (ends_launchDbus h₄).bind (fun _ t₅ ⟨_, h₅⟩ => ?_) hfails
  refine (ends_launchPulseaudio h₅).bind (fun _ t₆ ⟨l, h₆⟩ => ?_) hfails
  have hall : t₆.trace ++ [.run] = p.events l := by
    rw [h₆.trace]
    simp [Plan.events, Plan.stages]
  exact .inr ⟨p, l, h₆.sound.mono (List.Subset.refl _), h₆.environ, hall ▸ List.prefix_rfl, iff_of_true rfl hall⟩

theorem follows_start (host : Host W) (w : W) (environ : List CharString) :
    Follows host (succeeded (start host (.begin w environ))) (finalState (start host (.begin w environ))) :=
  Ends.final_of (P := Follows host) ((ends_start host w environ).mono (fun _ _ h => h) fun _ _ h => h.1)

end Wslg.Wslgd
