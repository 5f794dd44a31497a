import Wslg.Lib.Credentials
import Wslg.WestonEnv
/-!
# What a child may do

A child of WSLGd is a copy of a process of root. On its way to `execvpe` it becomes
the user, and it keeps the capabilities it was launched with, and only these. Calls
may fail for other reasons too, and then it exits.
-/

open Lib

namespace Wslg.Wslgd

def CAP_SETGID : cap_value_t := 6
def CAP_SETUID : cap_value_t := 7
def CAP_SETPCAP : cap_value_t := 8

def askedFor : AskedFor cap_value_t := ⟨CAP_SETGID, CAP_SETUID, CAP_SETPCAP⟩

/-! ## The calls -/

/-- The child, and its `caps`. -/
structure ChildProcess where
  cred : Credentials cap_value_t
  caps : Option (CapSets cap_value_t)

def CapFlag.set (flag : CapFlag) (values : List cap_value_t) (t : CapSets cap_value_t) : CapSets cap_value_t :=
  match flag with
  | .CAP_PERMITTED => { t with permitted := t.permitted ∪ values.toFinset }
  | .CAP_EFFECTIVE => { t with effective := t.effective ∪ values.toFinset }
  | .CAP_INHERITABLE => { t with inheritable := t.inheritable ∪ values.toFinset }

/-- What a call does that does not fail for another reason; the groups are those of the group database. -/
def ChildCall.carryOut (groupsOf : CharString → Nat → Finset Nat) (s : ChildProcess) : ChildCall → Option ChildProcess
  | .prctl_PR_SET_KEEPCAPS => some { s with cred := s.cred.setKeepCaps }
  | .setgid gid => (s.cred.setgid askedFor gid).map fun c => { s with cred := c }
  | .initgroups name gid => (s.cred.setgroups askedFor (groupsOf name gid)).map fun c => { s with cred := c }
  | .setuid uid => (s.cred.setuid askedFor uid).map fun c => { s with cred := c }
  | .cap_get_proc => some { s with caps := some s.cred.toCapSets }
  | .cap_set_flag flag values => s.caps.map fun t => { s with caps := some (flag.set values t) }
  | .cap_set_proc => do
    let t ← s.caps
    let c ← s.cred.capset askedFor t
    return { s with cred := c }
  | .cap_set_ambient cap => (s.cred.raiseAmbient cap).map fun c => { s with cred := c }
  | .chdir _ | .execvpe _ _ _ => some s

structure Program where
  file : Option CharString
  argv : List CharString
  envp : List CharString
  deriving DecidableEq

def ChildCall.program? : ChildCall → Option Program
  | .execvpe file argv envp => some ⟨file, argv, envp⟩
  | _ => none

inductive ChildEnd where
  | exited
  /-- The credentials are those with which `execvpe` was called. -/
  | runs (cred : Credentials cap_value_t) (program : Program)

/-- The calls one by one; `fails n` says that the call fails that has `n` calls behind it. -/
def runChild (groupsOf : CharString → Nat → Finset Nat) (fails : Nat → Bool) (s : ChildProcess) : List ChildCall → ChildEnd
  | [] => .exited
  | call :: calls =>
    if fails calls.length then .exited
    else match call.carryOut groupsOf s with
      | none => .exited
      | some t =>
        match call.program? with
        | some program => .runs t.cred program
        | none => runChild groupsOf fails t calls

/-- The calls up to `execvpe`, if none of them fails. -/
def carryOutAll (groupsOf : CharString → Nat → Finset Nat) (calls : List ChildCall) (s : ChildProcess) : Option ChildProcess :=
  calls.foldlM (ChildCall.carryOut groupsOf) s

section Calls

variable {groupsOf : CharString → Nat → Finset Nat} {fails : Nat → Bool} {s t : ChildProcess} {program : Program}

/-- All calls, and `execvpe` behind them. -/
theorem runChild_eq {calls : List ChildCall} (h : ∀ c ∈ calls, c.program? = none) :
    runChild groupsOf fails s (calls ++ [.execvpe program.file program.argv program.envp]) =
      match carryOutAll groupsOf calls s with
      | none => .exited
      | some t => if ∀ n ≤ calls.length, fails n = false then .runs t.cred program else .exited := by
  induction calls generalizing s with
  | nil => cases hlast : fails 0 <;> simp [runChild, carryOutAll, ChildCall.carryOut, ChildCall.program?, hlast]
  | cons call calls ih =>
    obtain ⟨hcall, hcalls⟩ := List.forall_mem_cons.1 h
    rw [List.cons_append, runChild, carryOutAll, List.foldlM_cons]
    cases hout : call.carryOut groupsOf s with
    | none => simp
    | some t =>
      simp only [hcall, ih hcalls]
      show _ = match carryOutAll groupsOf calls t with | none => _ | some t => _
      cases carryOutAll groupsOf calls t with
      | none => simp
      | some u =>
        have hall : (∀ n ≤ (call :: calls).length, fails n = false) ↔ fails (calls.length + 1) = false ∧ ∀ n ≤ calls.length, fails n = false := by
          constructor
          · intro hn
            exact ⟨hn _ le_rfl, fun n hle => hn n (hle.trans (Nat.le_succ _))⟩
          · rintro ⟨hlast, hn⟩ n hle
            rcases Nat.le_succ_iff.1 hle with hle | rfl
            · exact hn n hle
            · exact hlast
        simp only [hall, List.length_append, List.length_singleton]
        by_cases hfirst : fails (calls.length + 1) <;> simp [hfirst]

theorem carryOutAll_append (calls calls' : List ChildCall) : carryOutAll groupsOf (calls ++ calls') s =
    (carryOutAll groupsOf calls s).bind (carryOutAll groupsOf calls') := List.foldlM_append

end Calls

/-! ## From root to the user -/

/-- The credentials of WSLGd, which stay. -/
structure AsRoot (d : Credentials cap_value_t) : Prop where
  euid : d.euid = 0
  setgid : CAP_SETGID ∈ d.effective
  setuid : CAP_SETUID ∈ d.effective

/-- WSLGd may pass them on. -/
def Grantable (d : Credentials cap_value_t) (caps : List cap_value_t) : Prop :=
  ∀ cap ∈ caps, cap ∈ d.permitted ∧ (cap ∈ d.inheritable ∨ cap ∈ d.bounding)

instance (d : Credentials cap_value_t) (caps : List cap_value_t) : Decidable (Grantable d caps) :=
  inferInstanceAs (Decidable (∀ _ ∈ _, _))

/-- A program of the user with these capabilities and no others. -/
structure RunsAs (m_user : passwd) (groups : Finset Nat) (caps : List cap_value_t) (c : Credentials cap_value_t) : Prop where
  ids : c.Is m_user.pw_uid m_user.pw_gid
  groups : c.groups = groups
  permitted : c.permitted = caps.toFinset
  effective : c.effective = caps.toFinset
  ambient : c.ambient = caps.toFinset

/-- What is left of root's capabilities once the child is the user. -/
structure Dropped (d : Credentials cap_value_t) (m_user : passwd) (groups : Finset Nat) (permitted : Finset cap_value_t)
    (c : Credentials cap_value_t) : Prop where
  ids : c.Is m_user.pw_uid m_user.pw_gid
  groups : c.groups = groups
  permitted : c.permitted = permitted
  effective : c.effective = ∅
  ambient : c.ambient = ∅
  inheritable : c.inheritable = d.inheritable
  bounding : c.bounding = d.bounding

section Child

variable (groupsOf : CharString → Nat → Finset Nat) {d c : Credentials cap_value_t} {m_user : passwd} {groups : Finset Nat}
  {caps : List cap_value_t} {t : Option (CapSets cap_value_t)}

def userCalls (m_user : passwd) : List ChildCall :=
  [.setgid m_user.pw_gid, .initgroups m_user.pw_name m_user.pw_gid, .setuid m_user.pw_uid, .chdir m_user.pw_dir]

theorem carryOut_userCalls (hd : AsRoot d) (huser : m_user.pw_uid ≠ 0) : ∃ c,
    carryOutAll groupsOf (userCalls m_user) ⟨d, t⟩ = some ⟨c, t⟩ ∧
      Dropped d m_user (groupsOf m_user.pw_name m_user.pw_gid) (if d.keepCaps then d.permitted else ∅) c := by
  refine ⟨({ d with
    rgid := m_user.pw_gid, egid := m_user.pw_gid, sgid := m_user.pw_gid,
    groups := groupsOf m_user.pw_name m_user.pw_gid } : Credentials cap_value_t).changeUids
      m_user.pw_uid m_user.pw_uid m_user.pw_uid, ?_, ?_⟩
  · simp only [carryOutAll, userCalls, List.foldlM_cons, List.foldlM_nil, ChildCall.carryOut]
    rw [Credentials.setgid_of_mem hd.setgid]
    simp only [Option.map_some, Option.bind_eq_bind, Option.bind_some]
    rw [Credentials.setgroups_of_mem (by exact hd.setgid)]
    simp only [Option.map_some, Option.bind_some]
    rw [Credentials.setuid_of_mem (by exact hd.setuid)]
    rfl
  · exact ⟨⟨rfl, rfl, rfl, rfl, rfl, rfl⟩, rfl, Credentials.changeUids_permitted hd.euid huser,
      Credentials.changeUids_effective hd.euid huser, Credentials.changeUids_ambient hd.euid huser, rfl, rfl⟩

def capsCalls (caps : List cap_value_t) : List ChildCall :=
  [.cap_get_proc, .cap_set_flag .CAP_PERMITTED caps, .cap_set_flag .CAP_EFFECTIVE caps, .cap_set_flag .CAP_INHERITABLE caps,
    .cap_set_proc] ++ caps.map .cap_set_ambient

theorem carryOut_ambient (h : ∀ cap ∈ caps, cap ∈ c.permitted ∩ c.inheritable) :
    carryOutAll groupsOf (caps.map .cap_set_ambient) ⟨c, t⟩ =
      (caps.foldlM Credentials.raiseAmbient c).map fun c => ⟨c, t⟩ := by
  induction caps generalizing c with
  | nil => rfl
  | cons cap caps ih =>
    obtain ⟨hcap, hcaps⟩ := List.forall_mem_cons.1 h
    have hraise : c.raiseAmbient cap = some (c.setAmbient (insert cap c.ambient) (Finset.insert_subset hcap c.ambient_subset)) :=
      dif_pos hcap
    rw [List.map_cons, carryOutAll, List.foldlM_cons, List.foldlM_cons, ChildCall.carryOut, hraise]
    exact ih (by exact hcaps)

/-- The sets with the listed ones in each of them. -/
def withCaps (t : CapSets cap_value_t) (caps : List cap_value_t) : CapSets cap_value_t :=
  ⟨t.permitted ∪ caps.toFinset, t.effective ∪ caps.toFinset, t.inheritable ∪ caps.toFinset⟩

theorem carryOut_capsCalls : carryOutAll groupsOf (capsCalls caps) ⟨c, t⟩ =
    (c.capset askedFor (withCaps c.toCapSets caps)).bind fun c' =>
      carryOutAll groupsOf (caps.map .cap_set_ambient) ⟨c', some (withCaps c.toCapSets caps)⟩ := by
  have hset : carryOutAll groupsOf [.cap_get_proc, .cap_set_flag .CAP_PERMITTED caps, .cap_set_flag .CAP_EFFECTIVE caps,
      .cap_set_flag .CAP_INHERITABLE caps, .cap_set_proc] ⟨c, t⟩ =
      (c.capset askedFor (withCaps c.toCapSets caps)).map fun c' => ⟨c', some (withCaps c.toCapSets caps)⟩ := by
    simp only [carryOutAll, List.foldlM_cons, List.foldlM_nil, ChildCall.carryOut, Option.map_some, Option.bind_eq_bind,
      Option.bind_some]
    show ((c.capset askedFor (withCaps c.toCapSets caps)).bind _).bind _ = _
    cases c.capset askedFor (withCaps c.toCapSets caps) <;> rfl
  rw [capsCalls, carryOutAll_append, hset, Option.bind_map]
  rfl

/-- What is granted needs no capability any more. -/
theorem settable_iff (hc : Dropped d m_user groups d.permitted c) :
    c.Settable askedFor (withCaps c.toCapSets caps) ↔ Grantable d caps := by
  have hlisted : ∀ a : Finset cap_value_t, caps.toFinset ⊆ a ↔ ∀ cap ∈ caps, cap ∈ a := by
    intro a
    simp [Finset.subset_iff]
  have hsubset : ∀ a : Finset cap_value_t, a ∪ caps.toFinset ⊆ a ↔ ∀ cap ∈ caps, cap ∈ a := by
    intro a
    rw [Finset.union_subset_iff, hlisted]
    exact and_iff_right Finset.Subset.rfl
  have hinherit : c.inheritable ∪ caps.toFinset ⊆ c.inheritable ∪ c.bounding ↔ ∀ cap ∈ caps, cap ∈ d.inheritable ∨ cap ∈ d.bounding := by
    rw [Finset.union_subset_iff, hlisted, hc.inheritable, hc.bounding]
    simp only [Finset.mem_union]
    exact and_iff_right Finset.subset_union_left
  constructor
  · rintro ⟨hpermitted, -, hbounded, -⟩ cap hcap
    exact ⟨hc.permitted ▸ (hsubset _).1 hpermitted cap hcap, hinherit.1 hbounded cap hcap⟩
  · intro h
    have hpermitted : ∀ cap ∈ caps, cap ∈ c.permitted := fun cap hcap => hc.permitted ▸ (h cap hcap).1
    refine ⟨(hsubset _).2 hpermitted, ?_, hinherit.2 fun cap hcap => (h cap hcap).2, .inr ?_⟩
    · exact Finset.union_subset_union_left (hc.effective ▸ Finset.empty_subset _)
    · exact Finset.union_subset_union_right fun cap hcap => hpermitted cap (List.mem_toFinset.1 hcap)

theorem granted_caps (hc : Dropped d m_user groups d.permitted c) (h : Grantable d caps) : ∃ c' t',
    carryOutAll groupsOf (capsCalls caps) ⟨c, t⟩ = some ⟨c', t'⟩ ∧ c'.Is m_user.pw_uid m_user.pw_gid ∧ c'.groups = groups ∧
      c'.ambient = caps.toFinset := by
  have hset := (settable_iff hc).2 h
  rw [carryOut_capsCalls, Credentials.capset, dif_pos hset]
  have hall : ∀ cap ∈ caps, cap ∈ (withCaps c.toCapSets caps).permitted ∩ (withCaps c.toCapSets caps).inheritable := by
    intro cap hcap
    simp [withCaps, hcap]
  simp only [Option.bind_some]
  rw [carryOut_ambient groupsOf (by exact hall), Credentials.raiseAmbient_all (by exact hall)]
  refine ⟨_, _, rfl, ⟨hc.ids.ruid, hc.ids.euid, hc.ids.suid, hc.ids.rgid, hc.ids.egid, hc.ids.sgid⟩, hc.groups, ?_⟩
  simp [Credentials.setAmbient, hc.ambient]

theorem refused_caps (hc : Dropped d m_user groups d.permitted c) (h : ¬ Grantable d caps) :
    carryOutAll groupsOf (capsCalls caps) ⟨c, t⟩ = none := by
  rw [carryOut_capsCalls, Credentials.capset, dif_neg (mt (settable_iff hc).1 h), Option.bind_none]

/-- The calls of the child up to `execvpe`. -/
def setUpCalls (m_user : passwd) (caps : List cap_value_t) : List ChildCall :=
  (if caps ≠ [] then [.prctl_PR_SET_KEEPCAPS] else []) ++ userCalls m_user ++ (if caps ≠ [] then capsCalls caps else [])

def programOf (environ : List CharString) (info : ProcessInfo) : Program :=
  ⟨(info.argv.map c_str).head?, info.argv.map c_str, environ ++ (info.env.filter (· ≠ [])).map c_str⟩

theorem childCalls_eq (m_user : passwd) (environ : List CharString) (info : ProcessInfo) : childCalls m_user environ info =
    setUpCalls m_user info.capabilities ++ [.execvpe (programOf environ info).file (programOf environ info).argv
      (programOf environ info).envp] := by
  simp [childCalls, setUpCalls, userCalls, capsCalls, programOf]

theorem setUpCalls_program (m_user : passwd) (caps : List cap_value_t) : ∀ c ∈ setUpCalls m_user caps, c.program? = none := by
  unfold setUpCalls userCalls capsCalls
  split <;> simp [ChildCall.program?]

/-- A program of the user has what was raised. -/
theorem runsAs_of_ambient (hids : c.Is m_user.pw_uid m_user.pw_gid) (huser : m_user.pw_uid ≠ 0) (hambient : c.ambient = caps.toFinset) :
    RunsAs m_user c.groups caps c.execPlain := by
  obtain ⟨hpermitted, heffective, hexec⟩ := Credentials.execPlain_of_user hids huser
  exact ⟨Credentials.execPlain_is hids, rfl, hpermitted.trans hambient, heffective.trans hambient, hexec.trans hambient⟩

/-- The child gets to `execvpe` if the capabilities may be granted, and its program has them and the user's IDs. -/
theorem carryOut_setUpCalls (caps : List cap_value_t) (hd : AsRoot d) (huser : m_user.pw_uid ≠ 0) :
    (Grantable d caps → ∃ s : ChildProcess, carryOutAll groupsOf (setUpCalls m_user caps) ⟨d, none⟩ = some s ∧
      RunsAs m_user (groupsOf m_user.pw_name m_user.pw_gid) caps s.cred.execPlain) ∧
    (¬ Grantable d caps → carryOutAll groupsOf (setUpCalls m_user caps) ⟨d, none⟩ = none) := by
  unfold setUpCalls
  by_cases hcaps : caps = []
  -- nothing is kept, and nothing is asked for
  · subst hcaps
    obtain ⟨c, hcalls, hc⟩ := carryOut_userCalls groupsOf (t := none) hd huser
    refine ⟨fun _ => ⟨⟨c, none⟩, by simpa using hcalls, hc.groups ▸ runsAs_of_ambient hc.ids huser hc.ambient⟩, fun h => ?_⟩
    exact absurd (fun cap hcap => absurd hcap List.not_mem_nil) h
  · have hkeep : AsRoot d.setKeepCaps := ⟨hd.euid, hd.setgid, hd.setuid⟩
    obtain ⟨c, hcalls, hc⟩ := carryOut_userCalls groupsOf (t := none) hkeep huser
    have hdropped : Dropped d m_user (groupsOf m_user.pw_name m_user.pw_gid) d.permitted c :=
      ⟨hc.ids, hc.groups, hc.permitted, hc.effective, hc.ambient, hc.inheritable, hc.bounding⟩
    have hall : carryOutAll groupsOf ([.prctl_PR_SET_KEEPCAPS] ++ userCalls m_user ++ capsCalls caps) ⟨d, none⟩ =
        carryOutAll groupsOf (capsCalls caps) ⟨c, none⟩ := by
      rw [carryOutAll_append, List.singleton_append]
      show (carryOutAll groupsOf (userCalls m_user) ⟨d.setKeepCaps, none⟩).bind _ = _
      rw [hcalls, Option.bind_some]
    rw [if_pos hcaps, if_pos hcaps, hall]
    refine ⟨fun hgrant => ?_, refused_caps groupsOf hdropped⟩
    obtain ⟨c', t', hset, hids, hgroups, hambient⟩ := granted_caps groupsOf (t := none) hdropped hgrant
    exact ⟨⟨c', t'⟩, hset, hgroups ▸ runsAs_of_ambient hids huser hambient⟩

/-- What the program of a child may do. -/
theorem runs_privileges (hd : AsRoot d) (huser : m_user.pw_uid ≠ 0) (environ : List CharString) (info : ProcessInfo)
    (fails : Nat → Bool) {cred : Credentials cap_value_t} {program : Program}
    (h : runChild groupsOf fails ⟨d, none⟩ (childCalls m_user environ info) = .runs cred program) :
    program = programOf environ info ∧
      RunsAs m_user (groupsOf m_user.pw_name m_user.pw_gid) info.capabilities cred.execPlain := by
  obtain ⟨hgranted, hrefused⟩ := carryOut_setUpCalls groupsOf info.capabilities hd huser
  rw [childCalls_eq, runChild_eq (setUpCalls_program m_user info.capabilities)] at h
  by_cases hgrant : Grantable d info.capabilities
  · obtain ⟨s, hcalls, hruns⟩ := hgranted hgrant
    simp only [hcalls] at h
    split at h <;> cases h
    exact ⟨rfl, hruns⟩
  · simp [hrefused hgrant] at h

/-- Whatever else fails on the way: a child either exits, or its program has the IDs and groups of the user and exactly
the capabilities it was launched with. It exits if one of its calls fails or WSLGd lacks one of the capabilities. -/
theorem child_privileges (hd : AsRoot d) (huser : m_user.pw_uid ≠ 0) (environ : List CharString) (info : ProcessInfo)
    (fails : Nat → Bool) :
    (∀ cred program, runChild groupsOf fails ⟨d, none⟩ (childCalls m_user environ info) = .runs cred program →
      program = programOf environ info ∧
        RunsAs m_user (groupsOf m_user.pw_name m_user.pw_gid) info.capabilities cred.execPlain) ∧
    (runChild groupsOf fails ⟨d, none⟩ (childCalls m_user environ info) = .exited ↔
      ¬ Grantable d info.capabilities ∨ ∃ n < (childCalls m_user environ info).length, fails n = true) := by
  refine ⟨fun cred program h => runs_privileges groupsOf hd huser environ info fails h, ?_⟩
  obtain ⟨hgranted, hrefused⟩ := carryOut_setUpCalls groupsOf info.capabilities hd huser
  rw [childCalls_eq, runChild_eq (setUpCalls_program m_user info.capabilities)]
  by_cases hgrant : Grantable d info.capabilities
  · obtain ⟨s, hcalls, -⟩ := hgranted hgrant
    simp only [hcalls, hgrant, not_true_eq_false, false_or, List.length_append, List.length_singleton, Nat.lt_succ_iff]
    split
    · rename_i hfails
      refine iff_of_false (by simp) ?_
      rintro ⟨n, hn, h⟩
      rw [hfails n hn] at h
      cases h
    · rename_i hfails
      refine iff_of_true rfl ?_
      simpa using hfails
  · simp [hrefused hgrant, hgrant]

end Child

/-! ### Weston -/

def allCaps : Finset cap_value_t := ((List.range 41).map Int.ofNat).toFinset

def rootCredentials : Credentials cap_value_t where
  permitted := allCaps
  effective := allCaps
  inheritable := ∅
  ruid := 0
  euid := 0
  suid := 0
  rgid := 0
  egid := 0
  sgid := 0
  groups := {0}
  ambient := ∅
  bounding := allCaps
  keepCaps := false
  effective_subset := Finset.Subset.rfl
  ambient_subset := Finset.empty_subset _

theorem asRoot_rootCredentials : AsRoot rootCredentials := ⟨rfl, by decide, by decide⟩

/-- Weston gets its three capabilities. -/
theorem child_privileges_of_weston : ∃ cred,
    runChild (fun _ gid => {gid}) (fun _ => false) ⟨rootCredentials, none⟩ (childCalls wslgUser [] weston) =
      .runs cred (programOf [] weston) ∧ RunsAs wslgUser {1000} weston.capabilities cred.execPlain := by
  obtain ⟨hruns, hexited⟩ := child_privileges (fun _ gid => {gid}) asRoot_rootCredentials (show wslgUser.pw_uid ≠ 0 by decide)
    [] weston fun _ => false
  have hgrant : Grantable rootCredentials weston.capabilities := by decide
  cases hend : runChild (fun _ gid => {gid}) (fun _ => false) ⟨rootCredentials, none⟩ (childCalls wslgUser [] weston) with
  | exited => simpa [hgrant] using hexited.1 hend
  | runs cred program =>
    obtain ⟨rfl, hcred⟩ := hruns cred program hend
    exact ⟨cred, rfl, hcred⟩

end Wslg.Wslgd
