import Wslg.Batching
import Wslg.Handshake
import Wslg.Follow
/-!
# Before the handshake

Until `OnCaps` has returned success the loop rejects every other message, and
`OnCaps` itself creates the two folders of the provider and nothing else.
-/

open Lib Lib.TraceM

namespace Wslg

open Client WSLDVCCallback

variable {W α : Type}

/-! ## What OnCaps does outside -/

/-- What `BuildMenuPath` and `BuildIconPath` create for a provider that passed the checks. -/
inductive ProviderFolder (os : OS W) : WString → Prop
  | menu {w : W} {startMenu provider : WString} : (os.SHGetKnownFolderPath w).1 = some startMenu →
      providerOk provider = true → ProviderFolder os (startMenu ++ L "\\Programs\\" ++ provider)
  | icons {w : W} {n : Nat} {temp : WString} : (os.GetTempPathW MAX_PATH w).1 = (n, temp) → n ≠ 0 →
      ProviderFolder os (temp ++ iconPrefix)
  | icon {w : W} {n : Nat} {temp provider : WString} : (os.GetTempPathW MAX_PATH w).1 = (n, temp) → n ≠ 0 →
      providerOk provider = true → ProviderFolder os (temp ++ iconPrefix ++ provider)

/-- One of these folders is created, or something is sent to the server. -/
def OnlyFolders (os : OS W) : Event → Prop
  | .CreateDirectoryW path => ProviderFolder os path
  | .ChannelWrite _ => True
  | _ => False

variable {os : OS W}

theorem folders_createIf {path : WString} (isCreateDir : Bool) (h : ProviderFolder os path) :
    Keeps (Appends (OnlyFolders os)) (createIf os isCreateDir path) :=
  keeps_createIf isCreateDir (appends_CreateDirectoryW os h)

theorem folders_BuildMenuPath {provider : WString} (h : providerOk provider = true) (size : Nat) (path : WString)
    (isCreateDir : Bool) : Keeps (Appends (OnlyFolders os)) (BuildMenuPath os size path provider isCreateDir) := by
  refine Keeps.call_bind (appends_call _) fun w => ?_
  cases hfolder : (os.SHGetKnownFolderPath w).1 with
  | none => exact Keeps.pure _
  | some startMenu =>
    simp only
    split
    · exact Keeps.pure _
    · rename_i p hp
      obtain rfl := (swprintf_s_some.1 hp).2
      exact (folders_createIf _ (.menu hfolder h)).bind fun _ => Keeps.pure _

theorem folders_BuildIconPath {provider : WString} (h : providerOk provider = true) (isCreateDir : Bool) :
    Keeps (Appends (OnlyFolders os)) (BuildIconPath os MAX_PATH provider isCreateDir) := by
  refine Keeps.call_bind (appends_call _) fun w => ?_
  cases htemp : (os.GetTempPathW MAX_PATH w).1 with
  | mk n temp =>
    refine Keeps.ite (fun _ => Keeps.pure _) fun hn => Keeps.ite (fun _ => Keeps.pure _) fun _ => ?_
    split
    · exact Keeps.pure _
    · rename_i root hroot
      obtain rfl := (wcscat_s_some.1 hroot).2
      refine (folders_createIf _ (.icons htemp hn)).bind fun hr => ?_
      cases hr with
      | some _ => exact Keeps.pure _
      | none =>
        simp only
        split
        · exact Keeps.pure _
        · rename_i p hp
          obtain rfl := (wcscat_s_some.1 hp).2
          exact (folders_createIf _ (.icon htemp hn h)).bind fun _ => Keeps.pure _

/-- The members that a CAPS message that fails keeps. -/
def WSLDVCCallback.kept (t : WSLDVCCallback) : Option WSLDVCFileDB × Option WSLDVCFileDB × Bool × Bool :=
  (t.m_spFileDB, t.m_spFileDBSync, t.m_bChannelClosed, t.m_handShakeComplated)

/-- The members in `g` are kept, and only the folders of a provider are created. -/
abbrev Creates {β : Type} (os : OS W) (g : WSLDVCCallback → β) : Machine W → Machine W → Prop :=
  Frame (SameOn g) (Appends (OnlyFolders os))

/-- A step that keeps all members but some outside `kept`. -/
theorem creates_of_frame {r : Handler W α} {g : WSLDVCCallback → WSLDVCCallback}
    (h : Preserves (Frame (SameOn g) (Appends (OnlyFolders os))) r) (hg : ∀ t, kept t = kept (g t)) :
    Preserves (Creates os kept) r :=
  h.mono fun _ _ hframe => hframe.mono (·.map kept hg) id

theorem creates_OnCapsPaths {m : Machine W} (h : providerOk m.this.m_appProvider.str = true) :
    Outcome (OnCapsPaths os) m (fun _ => Creates os kept m) (fun _ => Creates os kept m) := by
  have hmenu : Appends (OnlyFolders os) m.sys _ := folders_BuildMenuPath h MAX_PATH m.this.m_appMenuPath true m.sys
  refine outcome_getThis_bind (outcome_sys_bind (outcome_setThis_bind (Outcome.bind (outcome_check (fun _ => ?_)
    fun _ _ => ⟨rfl, hmenu⟩))))
  have hicon : Appends (OnlyFolders os) m.sys _ := trans_of _ hmenu (folders_BuildIconPath h true _)
  exact outcome_sys_bind (outcome_setThis_bind (outcome_check (fun _ => ⟨rfl, hicon⟩) fun _ _ => ⟨rfl, hicon⟩))

/-- The same for the databases alone, but the flag is not set anew. -/
structure Stopped (os : OS W) (m m' : Machine W) : Prop where
  creates : Creates os dbs m m'
  flag : m.this.m_handShakeComplated = false → m'.this.m_handShakeComplated = false

theorem stopped_of_creates {m m' : Machine W} (h : Creates os kept m m') : Stopped os m m' where
  creates := h.mono (·.map (fun k => (k.1, k.2.1, k.2.2.1)) fun _ => rfl) id
  flag hflag := (h.1.map (·.2.2.2) fun _ => rfl : SameOn (·.m_handShakeComplated) m.this m'.this).trans hflag

theorem Stopped.after {m m' m'' : Machine W} (h : Creates os kept m m') (h' : Stopped os m' m'') : Stopped os m m'' where
  creates := trans_of (Creates os dbs) (stopped_of_creates h).creates h'.creates
  flag hflag := h'.flag ((stopped_of_creates h).flag hflag)

theorem stopped_OnCapsReply (m : Machine W) :
    Outcome (OnCapsReply os) m (fun _ => Creates os dbs m) (fun _ => Stopped os m) := by
  have hframe : Preserves (Frame (SameOn noHandShake) (Appends (OnlyFolders os))) (OnCapsReply os) :=
    frame_OnCapsReply fun _ => appends_ChannelWrite os trivial
  have hflag : Outcome (OnCapsReply os) m (fun _ _ => True)
      (fun _ m' => m.this.m_handShakeComplated = false → m'.this.m_handShakeComplated = false) := by
    refine outcome_getThis_bind (Outcome.ite (fun _ => ?_) fun _ => outcome_setThis_bind (Outcome.reject_iff.2 fun _ => rfl))
    refine Outcome.bind (outcome_okOr (fun lang _ => ?_) fun _ _ => id)
    -- the flag says whether the write went well
    refine outcome_sys_bind (outcome_setThis_bind (outcome_check (fun _ => trivial) fun h _ _ => ?_))
    exact Option.isNone_eq_false_iff.2 (Option.isSome_iff_ne_none.2 h)
  have hdbs : ∀ m', Frame (SameOn noHandShake) (Appends (OnlyFolders os)) m m' → Creates os dbs m m' := fun m' h =>
    h.mono (·.map dbs fun _ => rfl) id
  exact ((hframe m).and hflag).mono (fun _ m' h => hdbs m' h.1) fun _ m' h => ⟨hdbs m' h.1, h.2⟩

/-- The name is checked before the folders are built from it. -/
theorem creates_OnCapsProvider (m : Machine W) : Outcome (OnCapsProvider os) m
    (fun _ m' => Creates os kept m m' ∧ providerOk m'.this.m_appProvider.str = true) (fun _ => Creates os kept m) := by
  have hcreates : Preserves (Creates os kept) (OnCapsProvider os) :=
    creates_of_frame (frame_OnCapsProvider (silent_appends os _)) fun _ => rfl
  refine ((hcreates m).and (outcome_OnCapsProvider os m)).mono (fun _ m' h => ⟨h.1, ?_⟩) fun _ _ h => h.1
  obtain ⟨-, -, hprovider, hok, -⟩ := h
  rwa [hprovider]

variable (os) in
/-- OnCaps leaves the databases alone, and the flag too unless it returns success. -/
theorem stopped_OnCaps (m : Machine W) : Outcome (OnCaps os) m (fun _ => Creates os dbs m) (fun _ => Stopped os m) := by
  have hread : Preserves (Creates os kept) readCaps := creates_of_frame frame_readCaps fun _ => rfl
  have henvironment : Preserves (Creates os kept) (OnCapsEnvironment os) :=
    creates_of_frame (frame_OnCapsEnvironment (silent_appends os _)) fun _ => rfl
  refine Outcome.bind ((hread m).mono (fun _ m₁ h₁ => ?_) fun _ _ h => stopped_of_creates h)
  refine Outcome.bind ((creates_OnCapsProvider m₁).mono (fun _ m₂ h₂ => ?_) fun _ _ h => .after h₁ (stopped_of_creates h))
  have hto₂ := trans_of (Creates os kept) h₁ h₂.1
  refine Outcome.bind ((creates_OnCapsPaths h₂.2).mono (fun _ m₃ h₃ => ?_) fun _ _ h => .after hto₂ (stopped_of_creates h))
  have hto₃ := trans_of (Creates os kept) hto₂ h₃
  refine Outcome.bind ((henvironment m₃).mono (fun _ m₄ h₄ => ?_) fun _ _ h => .after hto₃ (stopped_of_creates h))
  have hto₄ := trans_of (Creates os kept) hto₃ h₄
  exact (stopped_OnCapsReply m₄).mono (fun _ _ h => trans_of (Creates os dbs) (stopped_of_creates hto₄).creates h)
    fun _ _ h => .after hto₄ h

/-! ## One turn -/

/-- No app is registered, no session is open, and so far nothing was done outside
but to create the folders of providers and to send replies. -/
structure Untouched (os : OS W) (m : Machine W) : Prop where
  registry : m.this.m_spFileDB = some .empty
  session : m.this.m_spFileDBSync = none
  effects : ∀ e ∈ m.sys.trace, OnlyFolders os e

/-- The flag is not set either. -/
structure Before (os : OS W) (m : Machine W) : Prop extends Untouched os m where
  flag : m.this.m_handShakeComplated = false

theorem before_fresh (os : OS W) (w : W) : Before os (.fresh w) where
  registry := rfl
  session := rfl
  effects _ he := absurd he List.not_mem_nil
  flag := rfl

theorem Untouched.creates {m m' : Machine W} (h : Untouched os m) (hc : Creates os dbs m m') : Untouched os m' where
  registry := (hc.1.map (·.1) fun _ => rfl : SameOn (·.m_spFileDB) m.this m'.this).trans h.registry
  session := (hc.1.map (·.2.1) fun _ => rfl : SameOn (·.m_spFileDBSync) m.this m'.this).trans h.session
  effects e he := by
    obtain ⟨ext, htrace, hext⟩ := hc.2
    rw [htrace] at he
    rcases List.mem_append.1 he with he | he
    · exact h.effects e he
    · exact hext e he

/-- Whatever message comes, it does nothing else, and only a CAPS message that is accepted sets the flag. -/
theorem Before.receive {s : Reading (Machine W)} (h : Before os s.out) : Untouched os (finalState (receive os s)).out ∧
    ((∀ t, ¬ CapsAccepted os s t) → Before os (finalState (receive os s)).out) := by
  cases hh : readHeader s with
  | error x t =>
    have hout : t.out = s.out := out_readHeader_error hh
    rw [receive_error os hh, finalState_error, hout]
    exact ⟨h.toUntouched, fun _ => h⟩
  | ok hd t =>
    have hout : t.out = s.out := out_readHeader_ok hh
    rw [receive_ok os hh]
    by_cases hcaps : hd.cmdId = RDPAPPLIST_CMDID_CAPS
    -- a CAPS message
    · rw [dispatch, if_pos hcaps]
      cases hr : OnCaps os t with
      | ok a u =>
        have hu := (stopped_OnCaps os s.out).of_ok hout hr
        exact ⟨h.creates hu, fun hno => absurd ⟨hd, t, hh, hcaps, hr⟩ (hno u)⟩
      | error x u =>
        have hu := (stopped_OnCaps os s.out).of_error hout hr
        exact ⟨h.creates hu.creates, fun _ => ⟨h.creates hu.creates, hu.flag h.flag⟩⟩
    -- any other is rejected, since the flag is clear
    · have hrest : Outcome (dispatch os hd) s.out (fun _ => Before os) (fun _ => Before os) :=
        outcome_dispatch os h (fun hc => absurd hc hcaps) (fun _ hk => by simp [h.flag] at hk)
          (fun hk => by simp [h.flag] at hk) fun hk => by simp [h.flag] at hk
      have hend := hrest.final hout
      exact ⟨hend.toUntouched, fun _ => hend⟩

/-! ## Runs of calls -/

/-- The turns of the loop from `s` on, each where it starts. -/
def turns (os : OS W) : Nat → Reading (Machine W) → List (Reading (Machine W))
  | 0, _ => []
  | fuel + 1, s =>
    if s.len ≠ 0 ∧ s.out.this.m_bChannelClosed = false then
      s :: match receive os s with
        | .error _ _ => []
        | .ok _ t => turns os fuel t
    else []

/-- The turns of a call of `OnDataReceived`. -/
def callTurns (os : OS W) (pBuffer : List BYTE) (m : Machine W) : List (Reading (Machine W)) :=
  turns os pBuffer.length ⟨pBuffer, 0, pBuffer.length, m⟩

/-- The machine after a call for each buffer. -/
def afterCalls (os : OS W) (m : Machine W) (pBuffers : List (List BYTE)) : Machine W :=
  pBuffers.foldl (fun m pBuffer => (OnDataReceived os pBuffer m).machine) m

def allTurns (os : OS W) : Machine W → List (List BYTE) → List (Reading (Machine W))
  | _, [] => []
  | m, pBuffer :: rest => callTurns os pBuffer m ++ allTurns os (OnDataReceived os pBuffer m).machine rest

/-! ### A turn of the loop -/

section Turns

variable {s : Reading (Machine W)}

theorem turns_stop (fuel : Nat) (h : ¬ Running s) : turns os fuel s = [] := by
  cases fuel with
  | zero => rfl
  | succ fuel => exact if_neg h

theorem turns_turn (fuel : Nat) (h : Running s) : turns os (fuel + 1) s =
    s :: match receive os s with
      | .error _ _ => []
      | .ok _ t => turns os fuel t :=
  if_pos h

end Turns

/-- Behind turns in which OnCaps did not return success: at the next one, or at the end. -/
structure StillBefore (os : OS W) (after : List (Reading (Machine W))) (last : Machine W) : Prop where
  turn : ∀ s ∈ after.head?, Before os s.out
  done : after = [] → Before os last

/-- There was no other turn. -/
theorem stillBefore_of_nil {before after : List (Reading (Machine W))} (h : [] = before ++ after) {m : Machine W}
    (hm : Before os m) : StillBefore os after m := by
  obtain ⟨-, rfl⟩ := List.append_eq_nil_iff.1 h.symm
  exact ⟨fun _ hs => (by cases hs), fun _ => hm⟩

theorem stillBefore_turns (fuel : Nat) {s : Reading (Machine W)} (h : Before os s.out)
    {before after : List (Reading (Machine W))} (hturns : turns os fuel s = before ++ after)
    (hno : ∀ u ∈ before, ∀ t, ¬ CapsAccepted os u t) : StillBefore os after (receiveLoop os fuel s).machine := by
  induction fuel generalizing s before with
  | zero =>
    refine stillBefore_of_nil hturns ?_
    by_cases hr : Running s
    · rwa [receiveLoop_zero hr]
    · rwa [receiveLoop_stop 0 hr]
  | succ fuel ih =>
    by_cases hr : Running s
    · rw [turns_turn fuel hr] at hturns
      cases before with
      | nil =>
        -- this turn is the next one
        obtain rfl := hturns
        exact ⟨fun u hu => by cases hu; exact h, fun hnil => by cases hnil⟩
      | cons u before =>
        obtain ⟨rfl, hrest⟩ := List.cons.inj hturns
        have hnext := h.receive.2 (hno _ List.mem_cons_self)
        cases hrun : receive os s with
        | error x t =>
          -- the handler fails: it was the last turn of the call
          have hlast : (receiveLoop os (fuel + 1) s).machine = t.out := congrArg Prod.snd (result_last fuel hr hrun)
          rw [hrun] at hrest hnext
          rw [hlast]
          exact stillBefore_of_nil hrest hnext
        | ok a t =>
          have hlast : (receiveLoop os (fuel + 1) s).machine = (receiveLoop os fuel t).machine :=
            congrArg Prod.snd (result_turn fuel hr hrun)
          rw [hrun] at hrest hnext
          rw [hlast]
          exact ih hnext hrest fun u hu => hno u (List.mem_cons_of_mem _ hu)
    · rw [turns_stop _ hr] at hturns
      rw [receiveLoop_stop _ hr]
      exact stillBefore_of_nil hturns h

theorem stillBefore_callTurns {pBuffer : List BYTE} {m : Machine W} (h : Before os m)
    {before after : List (Reading (Machine W))} (hturns : callTurns os pBuffer m = before ++ after)
    (hno : ∀ u ∈ before, ∀ t, ¬ CapsAccepted os u t) :
    StillBefore os after (OnDataReceived os pBuffer m).machine := by
  rw [OnDataReceived]
  split
  · rename_i hclosed
    have hstop : ¬ Running (⟨pBuffer, 0, pBuffer.length, m⟩ : Reading (Machine W)) := fun hr => by simp [Running, hclosed] at hr
    rw [callTurns, turns_stop _ hstop] at hturns
    exact stillBefore_of_nil hturns h
  · exact stillBefore_turns _ h hturns hno

theorem stillBefore_allTurns (pBuffers : List (List BYTE)) {m : Machine W} (h : Before os m)
    {before after : List (Reading (Machine W))} (hturns : allTurns os m pBuffers = before ++ after)
    (hno : ∀ u ∈ before, ∀ t, ¬ CapsAccepted os u t) : StillBefore os after (afterCalls os m pBuffers) := by
  induction pBuffers generalizing m before with
  | nil => exact stillBefore_of_nil hturns h
  | cons pBuffer rest ih =>
    rw [allTurns] at hturns
    rw [afterCalls, List.foldl_cons, ← afterCalls]
    rcases List.append_eq_append_iff.1 hturns with ⟨more, hbefore, hrest⟩ | ⟨more, hcall, hafter⟩
    · -- the call is over
      subst hbefore
      have hcall := stillBefore_callTurns h (List.append_nil _).symm fun u hu => hno u (List.mem_append_left _ hu)
      exact ih (hcall.done rfl) hrest fun u hu => hno u (List.mem_append_right _ hu)
    · have hcall' := stillBefore_callTurns h hcall hno
      cases more with
      | nil =>
        -- the call is over, and the next turn is in a later one
        have hrest : allTurns os (OnDataReceived os pBuffer m).machine rest = [] ++ after := hafter.symm
        exact ih (hcall'.done rfl) hrest fun u hu => absurd hu List.not_mem_nil
      | cons u more =>
        subst hafter
        exact ⟨hcall'.turn, fun hnil => by cases hnil⟩

/-- In every run of calls, up to the turn in which `OnCaps` first returns success and behind
that turn, no app is registered, no session is open, and the folders of providers are all that
was created. -/
theorem nothing_before_handshake (os : OS W) (w : W) (pBuffers : List (List BYTE))
    {before after : List (Reading (Machine W))} (h : allTurns os (.fresh w) pBuffers = before ++ after)
    (hno : ∀ s ∈ before, ∀ t, ¬ CapsAccepted os s t) :
    (∀ s ∈ after.head?, Untouched os s.out ∧ Untouched os (finalState (receive os s)).out) ∧
      (after = [] → Untouched os (afterCalls os (.fresh w) pBuffers)) := by
  have hstill := stillBefore_allTurns pBuffers (before_fresh os w) h hno
  refine ⟨fun s hs => ?_, fun hnil => (hstill.done hnil).toUntouched⟩
  have hs' := hstill.turn s hs
  exact ⟨hs'.toUntouched, hs'.receive.1⟩

/-! ### On the disk -/

theorem acceptsCaps_of_capsAccepted {s t : Reading (Machine Disk)} (h : CapsAccepted diskOS s t) : acceptsCaps s = true := by
  obtain ⟨hd, u, hh, hc, hok⟩ := h
  simp [acceptsCaps, hh, hc, hok, succeeded]

/-- An update is rejected, and then a CAPS message is accepted. -/
theorem nothing_before_handshake_on_disk : ∃ s₁ s₂,
    allTurns diskOS (.fresh []) [updateMessage 0 (L "a") (L "foo"), capsMessage (L "U")] = [s₁] ++ [s₂] ∧
      acceptsCaps s₂ = true ∧ Untouched diskOS (finalState (receive diskOS s₂)).out := by
  have hmap : (allTurns diskOS (.fresh []) [updateMessage 0 (L "a") (L "foo"), capsMessage (L "U")]).map acceptsCaps =
      [false, true] := by decide +kernel
  have hlen := congrArg List.length hmap
  rw [List.length_map] at hlen
  obtain ⟨s₁, s₂, hl⟩ := List.length_eq_two.1 hlen
  rw [hl, List.map_cons, List.map_cons, List.map_nil, List.cons.injEq, List.cons.injEq] at hmap
  have hno : ∀ s ∈ [s₁], ∀ t, ¬ CapsAccepted diskOS s t := by
    intro s hs t ht
    rw [List.mem_singleton.1 hs] at ht
    exact absurd (acceptsCaps_of_capsAccepted ht) (by simp [hmap.1])
  exact ⟨s₁, s₂, hl, hmap.2.1, ((nothing_before_handshake diskOS [] _ hl hno).1 s₂ rfl).2⟩

end Wslg
