import Wslg.StartEnv
/-!
# The children of WSLGd

WSLGd as a whole: `main` launches its four processes, and the loop of the monitor
starts them again. Whatever runs under it runs as the user, with the capabilities
that its kind was launched with and no others.
-/

open Lib

namespace Wslg.Wslgd

variable {W : Type} {host : Host W}

/-! ## The daemon -/

def Happened.ownLaunch? : Happened → Option (pid_t × ProcessInfo)
  | .launch childPid info => some (childPid, info)
  | _ => none

def StartEvent.launch? : StartEvent → Option (pid_t × ProcessInfo)
  | .launch childPid info => some (childPid, info)
  | _ => none

/-- A run of WSLGd: what `main` has launched up to now, and the turns of the loop. -/
structure DaemonRun (host : Host W) (w : W) (environ : List CharString) (as : List Happened) (s : Supervision) : Prop where
  run : Run SuperviseStep .start as s
  launches : as.filterMap Happened.ownLaunch? <+:
    (finalState (start host (.begin w environ))).trace.filterMap StartEvent.launch?

/-- The four kinds, with their capabilities. -/
inductive Kind (p : Plan) (l : Later) : ProcessInfo → List cap_value_t → Prop
  | weston : Kind p l p.weston [CAP_SYS_ADMIN, CAP_SYS_CHROOT, CAP_SYS_PTRACE]
  | client : Kind p l (p.client l) []
  | dbus : Kind p l dbusProcess [CAP_SETGID, CAP_SETUID]
  | pulseaudio : Kind p l (pulseaudioProcess l.pulseaudioLog) []

theorem Kind.capabilities {p : Plan} {l : Later} {info : ProcessInfo} {caps : List cap_value_t} (h : Kind p l info caps) :
    info.capabilities = caps := by
  cases h <;> rfl

/-- The launches of a plan are of these kinds. -/
theorem Plan.launch_kind {p : Plan} {l : Later} {childPid : pid_t} {info : ProcessInfo}
    (h : (childPid, info) ∈ (p.events l).filterMap StartEvent.launch?) : ∃ caps, Kind p l info caps := by
  obtain ⟨e, he, heq⟩ := List.mem_filterMap.1 h
  cases e with
  | launch pid info' =>
    cases heq
    have hmem : info = p.weston ∨ info = p.client l ∨ info = dbusProcess ∨ info = pulseaudioProcess l.pulseaudioLog := by
      cases hfonts : l.fonts <;> simp [Plan.events, Plan.stages, hfonts] at he <;> tauto
    rcases hmem with rfl | rfl | rfl | rfl
    · exact ⟨_, .weston⟩
    · exact ⟨_, .client⟩
    · exact ⟨_, .dbus⟩
    · exact ⟨_, .pulseaudio⟩
  | ready => cases heq
  | fontMonitor => cases heq
  | run => cases heq

/-! ## Where a child comes from -/

/-- What was launched at first was launched by `main`. -/
def Originates (as : List Happened) (s : Supervision) : Prop :=
  ∀ pid origin, s.originOf pid = some origin → ∃ childPid, (childPid, origin) ∈ as.filterMap Happened.ownLaunch?

theorem originates_step {as : List Happened} {s t : Supervision} {a : Happened} (hknown : Known s) (hs : Originates as s)
    (h : SuperviseStep s a t) : Originates (as ++ [a]) t := by
  have hold : ∀ pid origin, s.originOf pid = some origin → ∃ childPid,
      (childPid, origin) ∈ (as ++ [a]).filterMap Happened.ownLaunch? := by
    intro pid origin horigin
    obtain ⟨childPid, hmem⟩ := hs pid origin horigin
    exact ⟨childPid, by rw [List.filterMap_append]; exact List.mem_append_left _ hmem⟩
  intro pid origin horigin
  cases h with
  | @launch childPid info m hfresh h =>
    rw [originOf_update] at horigin
    split at horigin
    · cases horigin
      exact ⟨childPid, by simp [List.filterMap_append, Happened.ownLaunch?]⟩
    · exact hold pid origin horigin
  | @adopt adopted hfresh =>
    rw [originOf_update] at horigin
    split at horigin
    · cases horigin
    · exact hold pid origin horigin
  | @iteration i m c hchild hfound h hfresh =>
    rw [originOf_reaped s m i (passes_origin hknown hchild h)] at horigin
    split at horigin
    -- started again with what it was launched with at first
    · have hc := passes_origin hknown hchild h origin horigin
      exact hold i.answers.pid origin (by rw [Supervision.originOf, hchild]; exact hc)
    · split at horigin
      · cases horigin
      · exact hold pid origin horigin

theorem originates_run {as : List Happened} {s : Supervision} (h : Run SuperviseStep .start as s) : Originates as s := by
  refine (h.history (I := fun as s => Known s ∧ Originates as s) (fun as s a t hs ha => ?_) ?_).2
  · exact ⟨known_step hs.1 ha, originates_step hs.1 hs.2 ha⟩
  · exact ⟨known_start, fun _ _ h => by cases h⟩

/-! ## What the children may do -/

/-- At any time of any run of WSLGd, every child it has launched or started again is weston, the client, dbus or
pulseaudio; and if it gets to run its program, that has the IDs and groups of the user and exactly the capabilities of
its kind, whatever else failed on the way. -/
theorem children_of_wslgd {w : W} {environ : List CharString} {as : List Happened} {s : Supervision}
    (hrun : DaemonRun host w environ as s) {d : Credentials cap_value_t} (heuid : ∀ w, (host.geteuid w).1 = d.euid)
    (hsetgid : CAP_SETGID ∈ d.effective) (hsetuid : CAP_SETUID ∈ d.effective) (groupsOf : CharString → Nat → Finset Nat)
    {m_user : passwd} (huser : m_user.pw_uid ≠ 0) :
    (∀ pid, s.infoOf pid = none) ∨ ∃ (p : Plan) (l : Later), p.Sound host (finalState (start host (.begin w environ))) ∧
      ∀ pid info, s.infoOf pid = some info → ∃ caps, Kind p l info caps ∧ ∀ fails cred program,
        runChild groupsOf fails ⟨d, none⟩ (childCalls m_user p.environ info) = .runs cred program →
          program = programOf p.environ info ∧ RunsAs m_user (groupsOf m_user.pw_name m_user.pw_gid) caps cred.execPlain := by
  have horigin : ∀ pid info, s.infoOf pid = some info → ∃ childPid, (childPid, info) ∈
      (finalState (start host (.begin w environ))).trace.filterMap StartEvent.launch? := by
    intro pid info hinfo
    obtain ⟨childPid, hmem⟩ := originates_run hrun.run pid info (((known_run hrun.run).origins pid).trans hinfo)
    exact ⟨childPid, hrun.launches.subset hmem⟩
  rcases follows_start host w environ with ⟨-, hempty⟩ | ⟨p, l, hsound, -, hbefore, -⟩
  -- without a launch there is no child to speak of
  · refine .inl fun pid => ?_
    cases hinfo : s.infoOf pid with
    | none => rfl
    | some info =>
      obtain ⟨childPid, hmem⟩ := horigin pid info hinfo
      simp [hempty] at hmem
  · obtain ⟨w', -, hroot⟩ := hsound.root
    have hd : AsRoot d := ⟨(heuid w').symm.trans hroot, hsetgid, hsetuid⟩
    refine .inr ⟨p, l, hsound, fun pid info hinfo => ?_⟩
    obtain ⟨childPid, hmem⟩ := horigin pid info hinfo
    obtain ⟨caps, hkind⟩ := Plan.launch_kind ((hbefore.filterMap _).subset hmem)
    refine ⟨caps, hkind, fun fails cred program hruns => ?_⟩
    have hend := runs_privileges groupsOf hd huser p.environ info fails hruns
    rwa [hkind.capabilities] at hend

/-! ### Weston again -/

def plainLaunches : List (pid_t × ProcessInfo) :=
  (finalState (start plainHost (.begin 5 inherited))).trace.filterMap StartEvent.launch?

/-- The first child is started again, and still has a kind and its privileges. -/
theorem children_of_wslgd_again : ∃ info s, DaemonRun plainHost 5 inherited (relaunch info) s ∧ s.infoOf 6 = some info ∧
    ∃ (p : Plan) (l : Later), p.Sound plainHost (finalState (start plainHost (.begin 5 inherited))) ∧
      ∃ caps, Kind p l info caps ∧ ∀ fails cred program,
        runChild (fun _ gid => {gid}) fails ⟨rootCredentials, none⟩ (childCalls wslgUser p.environ info) = .runs cred program →
          program = programOf p.environ info ∧ RunsAs wslgUser {wslgUser.pw_gid} caps cred.execPlain := by
  have hfirst : plainLaunches.head?.map (fun x => (x.1, x.2.argv.length)) = some (5, 3) := by decide +kernel
  obtain ⟨⟨pid, info⟩, hhead, heq⟩ := Option.map_eq_some_iff.1 hfirst
  obtain ⟨rest, hrest⟩ := List.head?_eq_some_iff.1 hhead
  obtain ⟨rfl, hlen⟩ := Prod.mk.inj heq
  obtain ⟨s, hrun, horigin⟩ := run_relaunch info fun h => by simp [h] at hlen
  have hinfo : s.infoOf 6 = some info := ((known_run hrun).origins 6).symm.trans horigin
  have hdaemon : DaemonRun plainHost 5 inherited (relaunch info) s := ⟨hrun, rest, hrest.symm⟩
  refine ⟨info, s, hdaemon, hinfo, ?_⟩
  rcases children_of_wslgd hdaemon (d := rootCredentials) (fun _ => rfl) asRoot_rootCredentials.setgid
    asRoot_rootCredentials.setuid (fun _ gid => {gid}) (show wslgUser.pw_uid ≠ 0 by decide) with
    hnone | ⟨p, l, hsound, hkinds⟩
  · rw [hnone] at hinfo
    cases hinfo
  · exact ⟨p, l, hsound, hkinds 6 info hinfo⟩

end Wslg.Wslgd
