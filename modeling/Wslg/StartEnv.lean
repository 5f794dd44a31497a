import Wslg.StartOrder
/-!
# The environment of WSLGd

What weston, the client, dbus and pulseaudio are launched with: the values of the
configuration file come before those of `main`, and of these the forced ones before
what WSLGd was started with. The mount point of the shared memory is up to `main`
alone.
-/

open Lib Lib.Environ

namespace Wslg.Wslgd

variable {W : Type} {host : Host W}

/-! ## The layers -/

def EnvVar.assignment (v : EnvVar) : Assignment BYTE := (v.name, v.value, v.override)

/-- A value of `main`, or else what was there. -/
def preset (a : Account) (environ : List CharString) (name : CharString) : Option CharString :=
  match (envVariables a).find? (·.name = name) with
  | some v => some (if v.override then v.value else (getenv eqSign environ name).getD v.value)
  | none => getenv eqSign environ name

/-- The keys that can be set. -/
def keyAssignments (keys : List (CharString × Option CharString)) : List (Assignment BYTE) :=
  keys.filterMap fun key => if key.1.isEmpty || key.1.contains eqSign then none else key.2.map fun value => (key.1, value, true)

/-- The last value of the key. -/
def configured (keys : List (CharString × Option CharString)) (name : CharString) : Option CharString :=
  ((keys.filter (·.1 = name)).filterMap (·.2)).getLast?

/-- The file of the user, in the folder that `wslpath` printed, or else that of the machine. -/
inductive ConfigPath (host : Host W) (environ : List CharString) (t : StartSys W) : CharString → Prop
  | machine (h : getenv eqSign environ c_userProfileEnv = none) :
      ConfigPath host environ t (bytes "/mnt/c/ProgramData/Microsoft/WSL/.wslgconfig")
  | user {profile path : CharString} (h : getenv eqSign environ c_userProfileEnv = some profile)
      (hpath : t.Met host [] (.wslpath profile) (TranslateWindowsPath · profile = .path path)) :
      ConfigPath host environ t (path ++ bytes "/.wslgconfig")

/-- The keys that were read from it. -/
def Configuration (host : Host W) (environ : List CharString) (t : StartSys W) (keys : List (CharString × Option CharString)) :
    Prop :=
  if host.HAVE_WINPR then ∃ path, ConfigPath host environ t path ∧ t.Met host [] (.IniFile path c_systemDistroEnvSection) (· = keys)
  else keys = []

/-- Layer over layer, but for the shared memory. -/
def Layered (host : Host W) (environ : List CharString) (t : StartSys W) : Prop :=
  ∃ (a : Account) (keys : List (CharString × Option CharString)), t.Met host [] (.getpwnam c_userName) (· = some a) ∧
    Configuration host environ t keys ∧ ∀ name, name ≠ [] → eqSign ∉ name → name ≠ c_sharedMemoryMountPointEnv →
      getenv eqSign t.environ name = (configured keys name).or (preset a environ name)

section Answers

variable {environ : List CharString} {s t : StartSys W}

theorem ConfigPath.mono {path : CharString} (h : ConfigPath host environ s path) (hst : s.answers ⊆ t.answers) :
    ConfigPath host environ t path := by
  cases h with
  | machine h => exact .machine h
  | user h hpath => exact .user h (hpath.mono hst)

theorem Configuration.mono {keys : List (CharString × Option CharString)} (h : Configuration host environ s keys)
    (hst : s.answers ⊆ t.answers) : Configuration host environ t keys := by
  unfold Configuration at h ⊢
  by_cases hini : host.HAVE_WINPR = true
  · rw [if_pos hini] at h ⊢
    obtain ⟨path, hpath, hkeys⟩ := h
    exact ⟨path, hpath.mono hst, hkeys.mono hst⟩
  · rw [if_neg hini] at h ⊢
    exact h

theorem Layered.mono (h : Layered host environ s) (hst : s.answers ⊆ t.answers) (henv : t.environ = s.environ) :
    Layered host environ t := by
  obtain ⟨a, keys, haccount, hkeys, hvalues⟩ := h
  exact ⟨a, keys, haccount.mono hst, hkeys.mono hst, henv ▸ hvalues⟩

end Answers

/-! ## What the assignments amount to -/

theorem keyAssignments_names (keys : List (CharString × Option CharString)) :
    ∀ c ∈ keyAssignments keys, eqSign ∉ c.1 ∧ c.2.2 = true := by
  intro c hc
  obtain ⟨key, -, hkey⟩ := List.mem_filterMap.1 hc
  split at hkey
  · cases hkey
  · rename_i hname
    obtain ⟨value, -, rfl⟩ := Option.map_eq_some_iff.1 hkey
    exact ⟨fun h => hname (by simp [h]), rfl⟩

theorem keyAssignments_of_name (keys : List (CharString × Option CharString)) {name : CharString} (hne : name ≠ [])
    (h : eqSign ∉ name) :
    ((keyAssignments keys).filter (fun c => c.1 = name)).map (·.2.1) = (keys.filter (·.1 = name)).filterMap (·.2) := by
  induction keys with
  | nil => rfl
  | cons key keys ih =>
    obtain ⟨other, value⟩ := key
    by_cases hname : other = name
    · subst hname
      cases value with
      | none => simpa [keyAssignments, hne, h] using ih
      | some value => simpa [keyAssignments, hne, h] using ih
    · by_cases hother : other = [] ∨ eqSign ∈ other
      · simpa [keyAssignments, hother, hname] using ih
      · cases value with
        | none => simpa [keyAssignments, hother, hname] using ih
        | some value => simpa [keyAssignments, hother, hname] using ih

theorem getenv_variables (a : Account) (environ : List CharString) {name : CharString} (h : eqSign ∉ name) :
    getenv eqSign (setAll eqSign ((envVariables a).map EnvVar.assignment) environ) name = preset a environ name := by
  have hnames : ∀ c ∈ (envVariables a).map EnvVar.assignment, eqSign ∉ c.1 := by
    intro c hc
    obtain ⟨v, hv, rfl⟩ := List.mem_map.1 hc
    exact envVariables_names a v hv
  rw [getenv_setAll hnames h, preset]
  -- the names are different, so at most one of them is it
  have hnodup : ((envVariables a).map (·.name)).Nodup := by
    rw [map_envVariables]
    decide +kernel
  generalize envVariables a = vs at hnodup
  induction vs with
  | nil => rfl
  | cons v vs ih =>
    obtain ⟨hv, hvs⟩ := List.nodup_cons.1 hnodup
    by_cases hname : v.name = name
    · have hnone : (vs.map EnvVar.assignment).filter (fun c => c.1 = name) = [] := by
        rw [List.filter_eq_nil_iff]
        intro c hc heq
        obtain ⟨v', hv', rfl⟩ := List.mem_map.1 hc
        exact hv (List.mem_map.2 ⟨v', hv', (of_decide_eq_true heq).trans hname.symm⟩)
      have hfirst : v.assignment.1 = name := hname
      simp only [List.map_cons, List.filter_cons, hfirst, hname, decide_true, if_true, hnone, List.find?_cons_of_pos]
      rfl
    · have hfirst : v.assignment.1 ≠ name := hname
      simp only [List.map_cons, List.filter_cons, hfirst, hname, decide_false, Bool.false_eq_true, if_false, not_false_eq_true,
        List.find?_cons_of_neg]
      exact ih hvs

/-! ## What main sets -/

/-- There is memory for every variable. -/
def Host.HasMemory (host : Host W) : Prop := ∀ name value w, (host.setenv name value w).1 = true

theorem ends_setenv_memory (hmem : host.HasMemory) {name value : CharString} {override : Bool} (hne : name ≠ [])
    (h : eqSign ∉ name) (s : StartSys W) : Ends (setenv host name value override) s
    (fun ok t => ok = true ∧ t.environ = Environ.setenv eqSign name value override s.environ ∧ Quiet s t)
    fun _ _ => False := by
  unfold setenv
  rw [if_neg (by simp [hne, h])]
  refine ends_call_bind ?_
  rw [hmem]
  exact ⟨rfl, rfl, rfl, rfl, List.Subset.refl _⟩

theorem setAll_append (as bs : List (Assignment BYTE)) (environ : List CharString) :
    setAll eqSign (as ++ bs) environ = setAll eqSign bs (setAll eqSign as environ) := List.foldl_append

theorem ends_setVariables_memory (hmem : host.HasMemory) {vs : List EnvVar} (hvs : ∀ v ∈ vs, v.name ≠ [] ∧ eqSign ∉ v.name)
    (s : StartSys W) : Ends (vs.forM (setVariable host)) s
      (fun _ t => t.environ = setAll eqSign (vs.map EnvVar.assignment) s.environ ∧ Quiet s t) fun _ _ => False := by
  induction vs generalizing s with
  | nil => exact ⟨rfl, refl_of Quiet s⟩
  | cons v vs ih =>
    obtain ⟨hv, hvs⟩ := List.forall_mem_cons.1 hvs
    refine Ends.bind (P := fun _ t => t.environ = Environ.setenv eqSign v.name v.value v.override s.environ ∧ Quiet s t) ?_
      (fun _ t ht => ?_) fun _ _ h => h
    · refine (ends_setenv_memory hmem hv.1 hv.2 s).bind (fun ok t ht => ?_) fun _ _ h => h
      rw [ht.1]
      exact ht.2
    · refine (ih hvs t).mono (fun _ u hu => ⟨?_, trans_of Quiet ht.2 hu.2⟩) fun _ _ h => h
      rw [hu.1, ht.1]
      rfl

theorem ends_setKeys_memory (hmem : host.HasMemory) (keys : List (CharString × Option CharString)) (s : StartSys W) :
    Ends (keys.forM (setKey host)) s
      (fun _ t => t.environ = setAll eqSign (keyAssignments keys) s.environ ∧ Quiet s t) fun _ _ => False := by
  induction keys generalizing s with
  | nil => exact ⟨rfl, refl_of Quiet s⟩
  | cons key keys ih =>
    have hkey : Ends (setKey host key) s
        (fun _ t => t.environ = setAll eqSign (keyAssignments [key]) s.environ ∧ Quiet s t) fun _ _ => False := by
      obtain ⟨name, value⟩ := key
      cases value with
      | none =>
        refine Ends.pure_iff.2 ⟨?_, refl_of Quiet s⟩
        by_cases hname : name = [] ∨ eqSign ∈ name <;> simp [keyAssignments, hname, setAll]
      | some value =>
        by_cases hname : name = [] ∨ eqSign ∈ name
        · have hset : setenv host name value true = pure false := if_pos (by simpa using hname)
          have hnone : keyAssignments [(name, some value)] = [] := by simp [keyAssignments, hname]
          rw [hnone]
          show Ends (setenv host name value true >>= fun _ => pure PUnit.unit) s _ _
          rw [hset]
          exact ⟨rfl, refl_of Quiet s⟩
        · obtain ⟨hne, heq⟩ := not_or.1 hname
          have hone : keyAssignments [(name, some value)] = [(name, value, true)] := by simp [keyAssignments, hname]
          rw [hone]
          exact (ends_setenv_memory hmem hne heq s).bind (fun _ _ ht => ht.2) fun _ _ h => h
    refine hkey.bind (fun _ t ht => ?_) fun _ _ h => h
    refine (ih t).mono (fun _ u hu => ⟨?_, trans_of Quiet ht.2 hu.2⟩) fun _ _ h => h
    have hsplit : keyAssignments (key :: keys) = keyAssignments [key] ++ keyAssignments keys := by
      rw [← List.singleton_append, keyAssignments, List.filterMap_append]
      rfl
    rw [hu.1, ht.1, hsplit, setAll_append]

section BeforeLaunch

variable {s : StartSys W} (hs : s.trace = [])

include hs

/-- The path depends on the variables of WSLGd and on what `wslpath` prints. -/
theorem ends_configFilePath : Ends (configFilePath host) s
    (fun path t => Still s t ∧ ConfigPath host s.environ t path) fun _ _ => True := by
  refine ends_getenv_bind ?_
  cases hprofile : getenv eqSign s.environ c_userProfileEnv with
  | none => exact Ends.pure_iff.2 ⟨refl_of Still s, .machine hprofile⟩
  | some profile =>
    refine (ends_translateWindowsPath (.inl hprofile)).bind (fun result t ht => ?_) fun _ _ _ => trivial
    obtain ⟨ht, hpath⟩ := ht
    rw [ht.trace, hs] at hpath
    exact Ends.pure_iff.2 ⟨ht, .user hprofile hpath⟩

/-- The file is read for the path that `environ` gives. -/
theorem ends_SetupOptionalEnv (hmem : host.HasMemory) {environ : List CharString}
    (hprofile : getenv eqSign s.environ c_userProfileEnv = getenv eqSign environ c_userProfileEnv) :
    Ends (SetupOptionalEnv host) s (fun _ t => Quiet s t ∧ ∃ keys, Configuration host environ t keys ∧
      t.environ = setAll eqSign (keyAssignments keys) s.environ) fun _ _ => True := by
  unfold SetupOptionalEnv Configuration
  split
  · refine (ends_configFilePath hs).bind (fun path t ht => ends_ask_bind fun keys u hu hread => ?_) fun _ _ h => h
    obtain ⟨ht, hpath⟩ := ht
    have hpath' : ConfigPath host environ t path := by
      cases hpath with
      | machine h => exact .machine (hprofile ▸ h)
      | user h hpath => exact .user (hprofile ▸ h) hpath
    have hnone : u.trace = [] := hu.trace.trans (ht.trace.trans hs)
    rw [hnone] at hread
    refine (ends_setKeys_memory hmem keys u).mono (fun _ v hv => ?_) fun _ _ _ => trivial
    refine ⟨trans_of Quiet (trans_of Still ht hu).toQuiet hv.2, keys, ⟨path, ?_, hread.mono hv.2.answers⟩, ?_⟩
    · exact hpath'.mono (List.Subset.trans hu.answers hv.2.answers)
    · rw [hv.1, hu.environ, ht.environ]
  · exact Ends.pure_iff.2 ⟨refl_of Quiet s, [], rfl, rfl⟩

theorem ends_setUpEnvironment_memory (hmem : host.HasMemory) (a : Account) : Ends (setUpEnvironment host a) s
    (fun _ t => Quiet s t ∧ ∃ keys, Configuration host s.environ t keys ∧ ∀ name, name ≠ [] → eqSign ∉ name →
      getenv eqSign t.environ name = (configured keys name).or (preset a s.environ name)) fun _ _ => True := by
  have hvalid : ∀ v ∈ envVariables a, v.name ≠ [] ∧ eqSign ∉ v.name := by
    have hnames : ∀ name ∈ envNames, name ≠ [] ∧ eqSign ∉ name := by decide +kernel
    exact fun v hv => hnames v.name (map_envVariables a ▸ List.mem_map_of_mem hv)
  refine (ends_setVariables_memory hmem hvalid s).bind (fun _ t ht => ?_) fun _ _ h => h.elim
  obtain ⟨ht, hquiet⟩ := ht
  have hprofile : getenv eqSign t.environ c_userProfileEnv = getenv eqSign s.environ c_userProfileEnv := by
    rw [ht, getenv_variables a s.environ (by decide +kernel)]
    rfl
  refine (ends_SetupOptionalEnv (hquiet.trace.trans hs) hmem hprofile).bind (fun _ u hu => ?_) fun _ _ h => h
  obtain ⟨hquiet', keys, hkeys, henv⟩ := hu
  have hrest : Moves Still (Expected host) (GetEnvBool (bytes "WSLG_LOG_KMSG") false >>= fun kmsg =>
      if kmsg then StartM.must (host.chmod (bytes "/dev/kmsg") 0o666) else pure ⟨⟩) :=
    (still_GetEnvBool _ _).bind fun _ => Moves.ite (fun _ => still_must _) fun _ => Moves.pure _
  refine (hrest u).mono (fun _ v hv => ⟨trans_of Quiet hquiet (trans_of Quiet hquiet' hv.toQuiet), keys,
    hkeys.mono hv.answers, fun name hne hname => ?_⟩) fun _ _ _ => trivial
  have hall := keyAssignments_names keys
  rw [hv.environ, henv, getenv_setAll (fun c hc => (hall c hc).1) hname,
    foldl_replacing fun c hc => (hall c (List.mem_of_mem_filter hc)).2, keyAssignments_of_name keys hne hname, ht,
    getenv_variables a s.environ hname]
  rfl

/-! ## What everything is launched with -/

theorem ends_prepare_memory (hmem : host.HasMemory) : Ends (prepare host) s
    (fun _ t => Layered host s.environ t) fun _ _ => True := by
  refine ends_ask_bind fun o s₁ hs₁ haccount => ?_
  have hnone : s₁.trace = [] := hs₁.trace.trans hs
  rw [hnone] at haccount
  obtain _ | a := o
  · trivial
  refine Ends.bind_iff.2 (Ends.pure_iff.2 ?_)
  refine (ends_setUpEnvironment_memory hnone hmem a).bind (fun _ t ht => ?_) fun _ _ h => h
  obtain ⟨hquiet, keys, hkeys, hvalues⟩ := ht
  rw [hs₁.environ] at hkeys hvalues
  replace haccount := haccount.mono hquiet.answers
  -- behind a part that sets nothing
  have hskip : ∀ {α β : Type} {x : StartM W α} {f : α → StartM W β} {Q : β → StartSys W → Prop} {u : StartSys W},
      Moves Still (Expected host) x → Still t u → (∀ a v, Still t v → Ends (f a) v Q fun _ _ => True) →
      Ends (x >>= f) u Q fun _ _ => True :=
    fun hx hu hf => (hx _).bind (fun a v hv => hf a v (trans_of Still hu hv)) fun _ _ _ => trivial
  refine (ends_checkHost t).bind (fun vmId u hu => ?_) fun _ _ _ => trivial
  refine hskip (still_getenv _) hu.1 fun installPath u hu => hskip still_mountFiles hu fun _ u hu => ?_
  refine hskip (still_makeDirectory _ _) hu fun _ u hu => hskip (still_makeDirectory _ _) hu fun _ u hu => ?_
  refine hskip (still_makeDirectory _ _) hu fun _ u hu => ?_
  refine (ends_mountSharedMemory u).bind (fun mounted v hv => ?_) fun _ _ _ => trivial
  replace hv := trans_of Still hu hv.1
  refine (ends_listenForRdp v).bind (fun vsock v' hv' => ?_) fun _ _ _ => trivial
  replace hv' := trans_of Still hv hv'.1
  refine (ends_exportSharedMemory mounted v').bind (fun sharedMemory t' hexport => ?_) fun _ _ _ => trivial
  obtain ⟨⟨hquiet', hexport⟩, -⟩ := hexport
  have hall : t.answers ⊆ t'.answers := List.Subset.trans hv'.answers hquiet'.answers
  refine Ends.pure_iff.2 ⟨a, keys, haccount.mono hall, hkeys.mono hall, fun name hne hname hother => ?_⟩
  rw [hexport name hname, if_neg hother, hv'.environ]
  exact hvalues name hne hname

end BeforeLaunch

/-- Sets nothing. -/
structure SameEnviron (s t : StartSys W) : Prop where
  environ : t.environ = s.environ
  answers : s.answers ⊆ t.answers

instance : Std.Refl (SameEnviron (W := W)) := ⟨fun _ => ⟨rfl, List.Subset.refl _⟩⟩
instance : IsTrans (StartSys W) SameEnviron :=
  ⟨fun _ _ _ h h' => ⟨h'.environ.trans h.environ, List.Subset.trans h.answers h'.answers⟩⟩

theorem Still.sameEnviron {s t : StartSys W} (h : Still s t) : SameEnviron s t := ⟨h.environ, h.answers⟩

theorem sameEnviron_of_still {α : Type} {x : StartM W α} (h : Moves Still (Expected host) x) :
    Moves SameEnviron (Expected host) x := h.mono fun _ _ => Still.sameEnviron

theorem sameEnviron_launch (info : ProcessInfo) : Moves SameEnviron (Expected host) (launch host info) :=
  fun s => (ends_launch info s).mono (fun _ _ h => ⟨h.1.1, h.1.2⟩) fun _ _ h => ⟨h.1.sameEnviron, h.2⟩

/-- From the first launch on nothing is set any more. -/
theorem sameEnviron_launches (vmId : CharString) (installPath : Option CharString) (v : Vsock) (sharedMemory : Option CharString)
    (o : WestonOptions) (notifyFd : Nat) {s : StartSys W} (hinstall : getenv eqSign s.environ c_installPathEnv = installPath) :
    Ends (launchWeston host v o notifyFd >>= fun _ => startFontMonitor host >>= fun _ =>
      launchClient host vmId installPath v o.isRdpDesktopShell sharedMemory >>= fun _ =>
        launch host dbusProcess >>= fun _ => launchPulseaudio host >>= fun _ => StartM.emit .run) s
      (fun _ => SameEnviron s) fun _ => SameEnviron s := by
  have hemit : ∀ e, Moves SameEnviron (Expected host) (StartM.emit e : StartM W PUnit) := fun e s =>
    show SameEnviron s _ from ⟨rfl, List.Subset.refl _⟩
  have hcall : ∀ {α : Type} (f : W → α × W), Moves SameEnviron (Expected host) (StartM.call f) := fun f =>
    sameEnviron_of_still (still_call f)
  have hgetenv : ∀ name, Moves SameEnviron (Expected host) (StartM.getenv name : StartM W (Option CharString)) := fun name =>
    sameEnviron_of_still (still_getenv name)
  have hlaunch : ∀ info, Moves SameEnviron (Expected host) (launch host info) := sameEnviron_launch
  have hweston : Moves SameEnviron (Expected host) (launchWeston host v o notifyFd) := by
    refine Moves.bind (fun s => refl_of SameEnviron s) fun environ => (hlaunch _).bind fun _ => ?_
    exact (sameEnviron_of_still (still_must _)).bind fun _ => (hemit _).bind fun _ => (hcall _).bind fun _ => Moves.pure _
  have hfonts : Moves SameEnviron (Expected host) (startFontMonitor host) :=
    (sameEnviron_of_still (still_GetEnvBool _ _)).bind fun _ => Moves.ite
      (fun _ => (hcall _).bind fun _ => (hcall _).bind fun _ => hemit _) fun _ => Moves.pure _
  have hclient : ∀ t, SameEnviron s t → Ends (launchClient host vmId installPath v o.isRdpDesktopShell sharedMemory) t
      (fun _ => SameEnviron s) fun _ => SameEnviron s := by
    intro t ht
    have hpath : Translates t.environ (installPath.getD c_defaultInstallPath) := .inr (by rw [ht.environ, hinstall])
    refine (ends_rdpClientExePath hpath).bind (fun exePath u hu => ?_) fun _ u hu => trans_of SameEnviron ht hu.1.sameEnviron
    have hrest := (sameEnviron_of_still (still_wslDvcPlugin installPath.isSome)).bind fun plugin =>
      hlaunch (ClientOptions.process ⟨exePath, vmId, v.address.svm_port, plugin, sharedMemory,
        installPath.getD c_defaultInstallPath, o.isRdpDesktopShell⟩)
    have hu' := trans_of SameEnviron ht hu.sameEnviron
    exact (hrest u).mono (fun _ _ h => trans_of SameEnviron hu' h) fun _ _ h => trans_of SameEnviron hu' h.1
  refine (hweston s).bind (fun _ t ht => ?_) fun _ _ h => h.1
  refine (hfonts t).bind (fun _ u hu => ?_) fun _ _ h => trans_of SameEnviron ht h.1
  refine (hclient u (trans_of SameEnviron ht hu)).bind (fun _ v hv => ?_) fun _ _ h => h
  have hlast := (hlaunch dbusProcess).bind fun _ =>
    ((hgetenv (bytes "WSLG_PULSEAUDIO_LOG_PATH")).bind fun log => hlaunch (pulseaudioProcess log)).bind fun _ => hemit .run
  exact (hlast v).mono (fun _ _ h => trans_of SameEnviron hv h) fun _ _ h => trans_of SameEnviron hv h.1

/-- If anything is launched, every variable but the one of the shared memory has the last value of the configuration
file; without one it has the value of `main`, if that is forced or WSLGd was started without one, and else the one that
WSLGd was started with. -/
theorem environment_layers (hmem : host.HasMemory) (w : W) (environ : List CharString)
    (h : (finalState (start host (.begin w environ))).trace ≠ []) :
    Layered host environ (finalState (start host (.begin w environ))) := by
  refine (?_ : (finalState (start host (.begin w environ))).trace = [] ∨
    Layered host environ (finalState (start host (.begin w environ)))).resolve_left h
  refine Ends.final (P := fun t : StartSys W => t.trace = [] ∨ Layered host environ t) ?_
  have hprepare := (ends_prepare (.begin w environ)).and (ends_prepare_memory rfl hmem)
  refine hprepare.bind (fun r t ht => ?_) fun _ t ht => .inl ht.1.1.trace
  obtain ⟨⟨hquiet, hprepared⟩, hlayers⟩ := ht
  refine (ends_westonOptions t hprepared.display).bind (fun o u hu => ?_) fun _ u hu => .inl (hu.1.trace.trans hquiet.trace)
  have hsame : ∀ v, SameEnviron u v → v.trace = [] ∨ Layered host environ v := fun v hv =>
    .inr (hlayers.mono (List.Subset.trans hu.1.answers hv.answers) (hv.environ.trans hu.1.environ))
  have hinstall : getenv eqSign u.environ c_installPathEnv = r.2.1 := hu.1.environ ▸ hprepared.installPath
  exact (sameEnviron_launches r.1 r.2.1 r.2.2.1 r.2.2.2 o.1 o.2 hinstall).mono (fun _ v hv => hsame v hv) fun _ v hv => hsame v hv

/-! ### Where everything succeeds -/

def wslgAccount : Account := ⟨wslgUser, bytes "/bin/sh"⟩

/-- The world is the next PID; the configuration file sets a display and a home. -/
def plainHost : Host Nat where
  HAVE_WINPR := true
  getpwnam _ w := (some wslgAccount, w)
  setenv _ _ w := (true, w)
  unsetenv _ w := (true, w)
  pipes w := (printing (bytes "7F3C"), w)
  IniFile _ _ w := ([(bytes "DISPLAY", some (bytes ":1")), (bytes "HOME", some (bytes "/home/user"))], w)
  geteuid w := (0, w)
  create_directories _ w := (true, w)
  chmod _ _ w := (true, w)
  chown _ _ _ w := (true, w)
  createFile _ w := (true, w)
  mount _ _ w := (true, w)
  sockets w := (⟨.ok 3, fun _ => .ok ()⟩, w)
  listen _ w := (true, w)
  getrlimit w := (some 1024, w)
  setrlimit _ w := (true, w)
  access _ w := (true, w)
  unlink _ w := (true, w)
  socketLocal w := (some 4, w)
  bindLocal _ _ w := (true, w)
  accept _ w := (true, w)
  fork w := (w, w + 1)
  linux := .plain fun _ => []
  thread w := (.success 1, w)

def inherited : List CharString := [bytes "DISPLAY=:0", bytes "HOME=/root", bytes "XCURSOR_SIZE=24", bytes "LANG=C"]

def plainStart : StartSys Nat := finalState (start plainHost (.begin 100 inherited))

theorem environment_layers_of_plain : Layered plainHost inherited plainStart ∧
    [bytes "DISPLAY", bytes "HOME", bytes "USER", bytes "XCURSOR_SIZE", bytes "LANG"].map (getenv eqSign plainStart.environ) =
      [some (bytes ":1"), some (bytes "/home/user"), some (bytes "wslg"), some (bytes "24"), some (bytes "C")] :=
  ⟨environment_layers (fun _ _ _ => rfl) 100 inherited (by decide +kernel), by decide +kernel⟩

end Wslg.Wslgd
