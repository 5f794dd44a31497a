import Wslg.Follow
/-!
# Rejected updates

`OnUpdateAppList` makes its checks before it registers the app and writes the
files, so an update that is rejected leaves these alone. It opens a session
before most of the checks, and no return after that closes it again.
-/

open Lib Lib.TraceM

namespace Wslg

open Client WSLDVCCallback

variable {W : Type}

/-! ## What lasts -/

/-- A link or an icon file is written or deleted, or at least tried to. -/
def ChangesFile : Event → Prop
  | .DeleteFileW _ _ | .CreateIconFile _ _ _ | .CreateShellLink _ _ => True
  | _ => False

/-- Nothing is done to a link or an icon file. -/
abbrev NoFiles : Sys W → Sys W → Prop := Appends fun e => ¬ ChangesFile e

/-- The registry and the session, if there is one. -/
def WSLDVCCallback.databases (t : WSLDVCCallback) : Option WSLDVCFileDB × Option WSLDVCFileDB :=
  (t.m_spFileDB, t.m_spFileDBSync)

/-- Both databases are the same and no link or icon file was touched. -/
abbrev Unchanged (m m' : Machine W) : Prop := Frame (SameOn databases) NoFiles m m'

theorem unchanged_of_same {m m' : Machine W} (h : Frame Eq NoFiles m m') : Unchanged m m' :=
  h.mono (fun h => by rw [SameOn, h]) id

/-! ## The session -/

/-- An update with these flags starts a session. -/
def GateOpens (os : OS W) (flags : UInt32) (m : Machine W) : Prop :=
  has flags RDPAPPLIST_HINT_SYNC_START = true ∧ m.this.m_spFileDBSync = none ∧
    (os.CreateInstance m.sys.world).1 = none

/-- A session was started if `opens`, and otherwise nothing happened that lasts. -/
structure Left (opens : Prop) (m m' : Machine W) : Prop where
  opened : opens → m.this.m_spFileDBSync = none ∧ m'.this.m_spFileDBSync ≠ none
  unchanged : ¬ opens → Unchanged m m'

theorem Left.unchanged_iff {opens : Prop} {m m' : Machine W} (h : Left opens m m') : Unchanged m m' ↔ ¬ opens := by
  refine ⟨fun hu ho => ?_, h.unchanged⟩
  obtain ⟨hnone, hsome⟩ := h.opened ho
  have hsync : m'.this.m_spFileDBSync = m.this.m_spFileDBSync := hu.1.map Prod.snd fun _ => rfl
  exact hsome (hsync.trans hnone)

theorem Left.andThen {opens : Prop} {m m' m'' : Machine W} (h : Left opens m m') (hu : Unchanged m' m'') :
    Left opens m m'' where
  opened ho := by
    have hsync : m''.this.m_spFileDBSync = m'.this.m_spFileDBSync := hu.1.map Prod.snd fun _ => rfl
    exact ⟨(h.opened ho).1, hsync ▸ (h.opened ho).2⟩
  unchanged hn := trans_of Unchanged (h.unchanged hn) hu

/-- `OnSyncStart` fails before it has opened anything. -/
theorem left_OnSyncStart (os : OS W) {flags : UInt32} (hflag : has flags RDPAPPLIST_HINT_SYNC_START = true)
    (m : Machine W) :
    Outcome (OnSyncStart os) m (fun _ => Left (GateOpens os flags m) m) (fun _ => Left (GateOpens os flags m) m) := by
  have hrefl : Unchanged m m := refl_of Unchanged m
  refine outcome_getThis_bind (Outcome.bind (Outcome.ite (fun hs => Outcome.reject_iff.2 ?_) fun hs =>
    Outcome.pure_iff.2 ?_))
  · exact ⟨fun ho => by simp [ho.2.1] at hs, fun _ => hrefl⟩
  refine outcome_sys_bind (Outcome.bind (outcome_check (fun hc => ?_) fun hc e => ?_))
  · have hsync : m.this.m_spFileDBSync = none := by simpa using hs
    -- from here on nothing fails
    exact outcome_sys_bind (outcome_sys_bind (Outcome.update_iff.2 ⟨fun _ => ⟨hsync, by simp⟩,
      fun hn => absurd ⟨hflag, hsync, hc⟩ hn⟩))
  · exact ⟨fun ho => absurd ho.2.2 hc, fun _ => ⟨rfl, appends_call _ _⟩⟩

theorem left_syncGate (os : OS W) (flags : UInt32) (m : Machine W) :
    Outcome (syncGate os flags) m (fun _ => Left (GateOpens os flags m) m) (fun _ => Left (GateOpens os flags m) m) := by
  have hstart : Outcome (startSync os flags) m (fun _ => Left (GateOpens os flags m) m)
      (fun _ => Left (GateOpens os flags m) m) := Outcome.ite (fun hflag => left_OnSyncStart os hflag m)
    fun hflag => Outcome.pure_iff.2 ⟨fun ho => absurd ho.1 hflag, fun _ => refl_of Unchanged m⟩
  exact Outcome.bind (hstart.mono (fun _ m' h => outcome_getThis_bind (outcome_failWhen (fun _ => h) fun _ _ => h))
    fun _ _ h => h)

/-! ## Behind the session -/

theorem unchanged_registerApp (v : UpdateLocals) (m : Machine W) :
    Outcome (registerApp v) m (fun _ _ => True) (fun _ => Unchanged m) := by
  have hrefl : Unchanged m m := refl_of Unchanged m
  refine outcome_getThis_bind (Outcome.bind (outcome_deref (fun db hdb => ?_) fun _ _ => hrefl))
  refine outcome_setThis_bind (outcome_check (fun _ => trivial) fun hfail _ => ⟨?_, refl_of NoFiles m.sys⟩)
  rw [SameOn, databases, databases, WSLDVCFileDB.OnFileAdded_snd, WSLDVCFileDB.insert_of_conflict hfail, hdb]

/-- Whatever fails behind the session fails before anything is changed. -/
theorem unchanged_afterGate (os : OS W) (p : RDPAPPLIST_UPDATE_APPLIST_PDU) (icon : RDPAPPLIST_ICON_DATA)
    (m : Machine W) : Outcome (preparePaths os p icon >>= fun v => registerApp v >>= fun _ => finishUpdate os v) m
      (fun _ _ => True) (fun _ => Unchanged m) := by
  have hpaths := outcome_preparePaths (R := NoFiles) (m := m) p icon fun _ _ _ =>
    appends_CreateDirectoryW os (fun h => h)
  refine Outcome.bind (hpaths.mono (fun v m₁ h₁ => ?_) fun _ _ h => unchanged_of_same h)
  refine Outcome.bind ((unchanged_registerApp v m₁).mono (fun _ m₂ _ => ?_) fun _ _ h =>
    trans_of Unchanged (unchanged_of_same h₁.2) h)
  exact (noSync_finishUpdate os v m₂).mono (fun _ _ _ => trivial) fun _ _ h => h.elim

/-! ## Updates -/

/-- The update at `s` can be read and starts a session. -/
def OpensSession (os : OS W) (s : Reading (Machine W)) : Prop :=
  ∃ p icon t, ReadUpdateMessage os s = .ok (p, icon) t ∧ GateOpens os p.flags t.out

theorem frame_readMessage (os : OS W) : Preserves (Frame Eq NoFiles) (ReadUpdateMessage os) :=
  frame_ReadUpdateMessage (fun _ => appends_LocalAlloc os fun _ h => h) (appends_emit fun h => h)

/-- An update that is rejected changes nothing that lasts exactly if it did not
start a session before. -/
theorem rejected_changes_nothing (os : OS W) {s t : Reading (Machine W)} {x : ReadStop Stop}
    (h : OnUpdateAppList os s = .error x t) : Unchanged s.out t.out ↔ ¬ OpensSession os s := by
  suffices hleft : Left (OpensSession os s) s.out t.out from hleft.unchanged_iff
  have key : Ends (OnUpdateAppList os) s (fun _ _ => True) fun _ t => Left (OpensSession os s) s.out t.out := by
    unfold OnUpdateAppList
    refine Ends.bind (Ends.self _ s) (fun msg u hmsg => ?_) fun x u hmsg => ?_
    · obtain ⟨p, icon⟩ := msg
      -- the message can be read
      have hread := unchanged_of_same ((frame_readMessage os s.out).of_ok rfl hmsg)
      have hsync : u.out.this.m_spFileDBSync = s.out.this.m_spFileDBSync := hread.1.map Prod.snd fun _ => rfl
      have hopens : OpensSession os s ↔ GateOpens os p.flags u.out := by
        constructor
        · rintro ⟨p', icon', u', hmsg', ho⟩
          rw [hmsg] at hmsg'
          cases hmsg'
          exact ho
        · intro ho
          exact ⟨p, icon, u, hmsg, ho⟩
      have hgate : Outcome (prepareUpdate os p icon >>= fun v => registerApp v >>= fun _ => finishUpdate os v) u.out
          (fun _ _ => True) fun _ => Left (GateOpens os p.flags u.out) u.out := by
        rw [prepareUpdate_eq, bind_assoc]
        exact Outcome.bind ((left_syncGate os p.flags u.out).mono
          (fun _ m h => (unchanged_afterGate os p icon m).mono (fun _ _ _ => trivial) fun _ _ => h.andThen) fun _ _ h => h)
      refine (hgate u rfl).mono (fun _ _ _ => trivial) fun _ w hw => ⟨fun ho => ?_, fun hn => ?_⟩
      · exact hsync ▸ hw.opened (hopens.1 ho)
      · exact trans_of Unchanged hread (hw.unchanged fun ho => hn (hopens.2 ho))
    · refine ⟨fun ho => ?_, fun _ => unchanged_of_same ((frame_readMessage os s.out).of_error rfl hmsg)⟩
      -- it cannot, and then no session is opened either
      obtain ⟨p, icon, u', hmsg', -⟩ := ho
      rw [hmsg] at hmsg'
      cases hmsg'
  exact key.error h

/-! ### On the disk -/

/-- An update whose id climbs, behind its header. -/
def climbingUpdate (hints : UInt32) : Reading (Machine Disk) :=
  .between [] ((updateMessage hints (L "..") (L "foo")).drop RDPAPPLIST_HEADER_SIZE) channelOfU

theorem rejected_changes_nothing_on_disk : ∃ x t, OnUpdateAppList diskOS (climbingUpdate 0) = .error x t ∧
    (Unchanged (climbingUpdate 0).out t.out ↔ ¬ OpensSession diskOS (climbingUpdate 0)) := by
  obtain ⟨x, h⟩ := failed_iff.1 (show succeeded (OnUpdateAppList diskOS (climbingUpdate 0)) = false by decide +kernel)
  exact ⟨x, _, h, rejected_changes_nothing diskOS h⟩

/-- With a start of a session on it the same update is rejected and the session stays open. -/
theorem rejected_update_opens_session : Reachable diskOS anyMessage (climbingUpdate RDPAPPLIST_HINT_SYNC_START).out ∧
    (climbingUpdate RDPAPPLIST_HINT_SYNC_START).out.this.m_handShakeComplated = true ∧
    ∃ x t, OnUpdateAppList diskOS (climbingUpdate RDPAPPLIST_HINT_SYNC_START) = .error x t ∧
      (climbingUpdate RDPAPPLIST_HINT_SYNC_START).out.this.m_spFileDBSync.isSome = false ∧
      t.out.this.m_spFileDBSync.isSome = true := by
  obtain ⟨x, h⟩ := failed_iff.1
    (show succeeded (OnUpdateAppList diskOS (climbingUpdate RDPAPPLIST_HINT_SYNC_START)) = false by decide +kernel)
  exact ⟨reachable_channelOfU, by decide +kernel, x, _, h, by decide +kernel, by decide +kernel⟩

end Wslg
