import Wslg.Disk
import Wslg.RoundTrip
/-!
# The decoder on arbitrary bytes

Whatever is in the buffer, the loop ends, nothing is read or written outside an
array, the cursor and the count agree with the buffer, and every string a
reader wrote is terminated inside its field.
-/

open Lib

namespace Wslg

open Client WSLDVCCallback

variable {W : Type}

/-! ## Readers -/

/-- A reader never faults; when it returns the cursor has moved inside the
buffer, and when it fails the caller's cursor and count are as before. -/
def Guarded {ε σ α : Type} (r : Reader ε σ α) : Prop :=
  ∀ s : Reading σ, s.Valid →
    (∀ a t, r s = .ok a t → t.buf = s.buf ∧ s.cur ≤ t.cur ∧ t.cur + t.len = t.buf.length) ∧
    ∀ x t, r s = .error x t → x ≠ .fault ∧ t.cur = s.cur ∧ t.len = s.len

theorem guarded_onCopy {ε σ α : Type} {r : Reader ε σ α} (hr : Local (onCopy r)) : Guarded (onCopy r) := by
  refine fun s hs => ⟨fun a t h => ?_, fun x t h => ⟨?_, onCopy_error h⟩⟩
  · obtain ⟨tk, -, -, ht, hbuf, hcur⟩ := hr.of_ok hs h
    exact ⟨hbuf, by omega, ht⟩
  · obtain ⟨e, rfl, -⟩ := hr.of_error hs h
    exact fun h => by cases h

/-! ## Terminated strings -/

/-- There is a NUL in the field. -/
def Terminated (f : StringField) : Prop := 0 ∈ f.chars.data

/-- The NUL is right behind the string. -/
def EndsWithNul (f : StringField) : Prop := f.chars.data[f.length.toNat / 2]? = some 0

theorem EndsWithNul.terminated {f : StringField} (h : EndsWithNul f) : Terminated f := List.mem_of_getElem? h

theorem endsWithNul_empty : EndsWithNul .empty := rfl

theorem terminated_zero : Terminated .empty := endsWithNul_empty.terminated

theorem endsWithNul_put {f : StringField} {t : RAIL_UNICODE_STRING} {required : Bool} (h : Readable required t.string)
    (h0 : t.string = [] → f = .empty) : EndsWithNul (f.put t.string) := by
  have := put_terminated h h0
  rwa [← t.length_toNat] at this

theorem endsWithNul_optPut {flags field : UInt32} {t : RAIL_UNICODE_STRING} {required : Bool}
    (h : OptReadable flags field required t.string) : EndsWithNul (optPut flags field .empty t.string) := by
  unfold optPut
  split
  · exact endsWithNul_put (h ‹_›) fun _ => rfl
  · exact endsWithNul_empty

namespace Client

structure RDPAPPLIST_UPDATE_APPLIST_PDU.EndsWithNul (p : RDPAPPLIST_UPDATE_APPLIST_PDU) : Prop where
  id : Wslg.EndsWithNul p.appId
  group : Wslg.EndsWithNul p.appGroup
  execPath : Wslg.EndsWithNul p.appExecPath
  workingDir : Wslg.EndsWithNul p.appWorkingDir
  desc : Wslg.EndsWithNul p.appDesc

structure RDPAPPLIST_DELETE_APPLIST_PDU.EndsWithNul (p : RDPAPPLIST_DELETE_APPLIST_PDU) : Prop where
  id : Wslg.EndsWithNul p.appId
  group : Wslg.EndsWithNul p.appGroup

structure RDPAPPLIST_ASSOCIATE_WINDOW_ID_PDU.EndsWithNul (p : RDPAPPLIST_ASSOCIATE_WINDOW_ID_PDU) : Prop where
  id : Wslg.EndsWithNul p.appId
  group : Wslg.EndsWithNul p.appGroup
  execPath : Wslg.EndsWithNul p.appExecPath
  desc : Wslg.EndsWithNul p.appDesc

end Client

/-- Every string in a message that was read ends with its NUL, and the icon's
file is a block of 62 bytes and the bits. -/
structure ReadsStrings (os : OS W) : Prop where
  caps : ∀ c bs u c', Accepts ReadAppListServerCaps c bs u c' →
    EndsWithNul c'.appListProviderName ∧ (4 ≤ c'.version → EndsWithNul c'.appListProviderUniqueId)
  update : ∀ bs u p, Accepts ReadAppListUpdate .zero bs u p → p.EndsWithNul
  delete : ∀ bs u p, Accepts ReadAppListDelete .zero bs u p → p.EndsWithNul
  associate : ∀ bs u p, Accepts ReadAssociateWindowId .zero bs u p → p.EndsWithNul
  icon : ∀ m bs i m', Accepts (ReadAppListIconData os) m bs i m' →
    62 + i.iconBitsLength.toNat < 2 ^ 32 ∧ m' = { m with sys := (LocalAlloc os (62 + i.iconBitsLength.toNat) m.sys).2 } ∧
      i.iconFileData.length = 62 + i.iconBitsLength.toNat ∧ i.iconFileSize.toNat = 62 + i.iconBitsLength.toNat ∧
        ∃ bits, bits.length = i.iconBitsLength.toNat ∧ i.iconFileData.drop 62 = bits ∧ bs.drop 28 = bits

theorem readsStrings (os : OS W) : ReadsStrings os where
  caps c bs u c' h := by
    obtain ⟨p, rfl, hp, rfl⟩ := accepts_ReadAppListServerCaps.1 h
    refine ⟨endsWithNul_put hp.name fun h => (hp.name.2 rfl h).elim, fun hv => ?_⟩
    replace hv : 4 ≤ p.version := hv
    simp only [Server.RDPAPPLIST_SERVER_CAPS_PDU.received, if_pos hv]
    exact endsWithNul_put (hp.uniqueId hv) fun h => ((hp.uniqueId hv).2 rfl h).elim
  update bs u p h := by
    obtain ⟨p, rfl, hp, rfl, -⟩ := (accepts_ReadAppListUpdate none).1 h
    exact ⟨endsWithNul_optPut hp.id, endsWithNul_optPut hp.group, endsWithNul_optPut hp.execPath,
      endsWithNul_optPut hp.workingDir, endsWithNul_optPut hp.desc⟩
  delete bs u p h := by
    obtain ⟨p, rfl, hp, rfl⟩ := accepts_ReadAppListDelete.1 h
    exact ⟨endsWithNul_optPut hp.id, endsWithNul_optPut hp.group⟩
  associate bs u p h := by
    obtain ⟨p, rfl, hp, rfl⟩ := accepts_ReadAssociateWindowId.1 h
    exact ⟨endsWithNul_optPut hp.id, endsWithNul_optPut hp.group, endsWithNul_optPut hp.execPath,
      endsWithNul_optPut hp.desc⟩
  icon m bs i m' h := by
    obtain ⟨i, rfl, hsize, -, rfl, rfl⟩ := (accepts_ReadAppListIconData os).1 h
    obtain ⟨-, -, -, -, -, -, hlen, hfile, hdata, hbits⟩ := Server.fields_recovered hsize
    have hl := i.iconBitsLength_toNat
    rw [hlen, hl]
    refine ⟨hsize, rfl, hdata, hfile, i.iconBits, rfl, hbits, ?_⟩
    exact List.drop_left' (by simp only [iconHead, List.length_append, le32_length])

/-! ### On every path -/

section Stays

variable {σ : Type} {P : σ → Prop} {o : Field σ}

/-- `P` says that `o` is terminated, and nothing else about it. -/
structure OfField (P : σ → Prop) (o : Field σ) : Prop where
  get : ∀ out, P out → Terminated (o.get out)
  set : ∀ f out, P out → Terminated f → P (o.set f out)

theorem terminated_write {a : WCharArray RDPAPPLIST_MAX_STRING_SIZE_IN_WCHAR} {n : Nat}
    {c : WCharArray RDPAPPLIST_MAX_STRING_SIZE_IN_WCHAR} (h : a.store (n / 2) 0 = some c) : 0 ∈ c.data := by
  simp only [WCharArray.store, Option.ite_none_right_eq_some, Option.some.injEq] at h
  obtain ⟨hn, rfl⟩ := h
  exact List.mem_set (by rwa [a.size]) _

/-- The copy and its terminator are never separated by a failure. -/
theorem stays_ReadCounted (h : OfField P o) (required : Bool) (n : UInt16) :
    Preserves (Stays P) (ReadCounted o required n) := by
  refine Preserves.ite (fun _ => Preserves.reject _) fun hn => Preserves.ite (fun _ out => ?_) fun _ =>
    Preserves.ite (fun _ => Preserves.reject _) fun _ => Preserves.pure _
  refine Outcome.bind (Outcome.readInto (fun bs out' hc => Outcome.store (fun out'' ht hp => ?_) fun ht => ?_)
    fun _ hp => hp)
  · obtain ⟨c, -, rfl⟩ := Option.map_eq_some_iff.1 hc
    obtain ⟨d, hd, rfl⟩ := Option.map_eq_some_iff.1 ht
    rw [o.get_set] at hd ⊢
    rw [o.set_set]
    exact h.set _ _ hp (terminated_write hd)
  · have := terminate_isSome (o := o) (n := n.toNat) (by omega) out'
    rw [ht] at this
    cases this

theorem stays_ReadUINT16 : Preserves (Stays P) (ReadUINT16 : Reader HRESULT σ _) :=
  (Preserves.takeBytes _ _).bind fun _ => Preserves.pure _

theorem stays_ReadUINT32 : Preserves (Stays P) (ReadUINT32 : Reader HRESULT σ _) :=
  (Preserves.takeBytes _ _).bind fun _ => Preserves.pure _

theorem stays_ReadSTRING (h : OfField P o) (required : Bool) : Preserves (Stays P) (ReadSTRING o required) :=
  stays_ReadUINT16.bind fun n => (Preserves.update fun out hp =>
    h.set { o.get out with length := n } out hp (h.get out hp)).bind fun _ => stays_ReadCounted h required _

theorem stays_ReadFlaggedSTRING (h : OfField P o) (flags field : UInt32) (required : Bool) :
    Preserves (Stays P) (ReadFlaggedSTRING flags field o required) :=
  Preserves.ite (fun _ => stays_ReadSTRING h required) fun _ => Preserves.pure _

theorem stays_CheckRequiredFlags (flags required : UInt32) :
    Preserves (Stays P) (CheckRequiredFlags flags required : Reader HRESULT σ _) :=
  Preserves.ite (fun _ => Preserves.reject _) fun _ => Preserves.pure _

end Stays

namespace Client

structure RDPAPPLIST_SERVER_CAPS_PDU.Terminated (c : RDPAPPLIST_SERVER_CAPS_PDU) : Prop where
  name : Wslg.Terminated c.appListProviderName
  uniqueId : Wslg.Terminated c.appListProviderUniqueId

structure RDPAPPLIST_UPDATE_APPLIST_PDU.Terminated (p : RDPAPPLIST_UPDATE_APPLIST_PDU) : Prop where
  id : Wslg.Terminated p.appId
  group : Wslg.Terminated p.appGroup
  execPath : Wslg.Terminated p.appExecPath
  workingDir : Wslg.Terminated p.appWorkingDir
  desc : Wslg.Terminated p.appDesc

structure RDPAPPLIST_DELETE_APPLIST_PDU.Terminated (p : RDPAPPLIST_DELETE_APPLIST_PDU) : Prop where
  id : Wslg.Terminated p.appId
  group : Wslg.Terminated p.appGroup

structure RDPAPPLIST_ASSOCIATE_WINDOW_ID_PDU.Terminated (p : RDPAPPLIST_ASSOCIATE_WINDOW_ID_PDU) : Prop where
  id : Wslg.Terminated p.appId
  group : Wslg.Terminated p.appGroup
  execPath : Wslg.Terminated p.appExecPath
  desc : Wslg.Terminated p.appDesc

end Client

/-- A reader that accepts or rejects leaves terminated strings terminated. -/
theorem stays_ReadAppListServerCaps : Preserves (Stays (·.Terminated)) ReadAppListServerCaps :=
  (stays_ReadUINT16.bind fun _ => (Preserves.update fun _ hp => ⟨hp.1, hp.2⟩).bind fun _ =>
    (stays_ReadSTRING ⟨fun _ hp => hp.1, fun _ _ hp hf => ⟨hf, hp.2⟩⟩ _).bind fun _ =>
      Preserves.ite (fun _ => stays_ReadSTRING ⟨fun _ hp => hp.2, fun _ _ hp hf => ⟨hp.1, hf⟩⟩ _) fun _ =>
        Preserves.pure _).onCopy

theorem stays_ReadAppListUpdate : Preserves (Stays (·.Terminated)) ReadAppListUpdate :=
  (stays_ReadUINT32.bind fun _ => (Preserves.update fun _ hp => ⟨hp.1, hp.2, hp.3, hp.4, hp.5⟩).bind fun _ =>
    (stays_CheckRequiredFlags _ _).bind fun _ =>
    (stays_ReadFlaggedSTRING ⟨fun _ hp => hp.1, fun _ _ hp hf => ⟨hf, hp.2, hp.3, hp.4, hp.5⟩⟩ _ _ _).bind fun _ =>
    (stays_ReadFlaggedSTRING ⟨fun _ hp => hp.2, fun _ _ hp hf => ⟨hp.1, hf, hp.3, hp.4, hp.5⟩⟩ _ _ _).bind fun _ =>
    (stays_ReadFlaggedSTRING ⟨fun _ hp => hp.3, fun _ _ hp hf => ⟨hp.1, hp.2, hf, hp.4, hp.5⟩⟩ _ _ _).bind fun _ =>
    (stays_ReadFlaggedSTRING ⟨fun _ hp => hp.4, fun _ _ hp hf => ⟨hp.1, hp.2, hp.3, hf, hp.5⟩⟩ _ _ _).bind fun _ =>
    stays_ReadFlaggedSTRING ⟨fun _ hp => hp.5, fun _ _ hp hf => ⟨hp.1, hp.2, hp.3, hp.4, hf⟩⟩ _ _ _).onCopy

theorem stays_ReadAppListDelete : Preserves (Stays (·.Terminated)) ReadAppListDelete :=
  (stays_ReadUINT32.bind fun _ => (Preserves.update fun _ hp => ⟨hp.1, hp.2⟩).bind fun _ =>
    (stays_CheckRequiredFlags _ _).bind fun _ =>
    (stays_ReadFlaggedSTRING ⟨fun _ hp => hp.1, fun _ _ hp hf => ⟨hf, hp.2⟩⟩ _ _ _).bind fun _ =>
    stays_ReadFlaggedSTRING ⟨fun _ hp => hp.2, fun _ _ hp hf => ⟨hp.1, hf⟩⟩ _ _ _).onCopy

theorem stays_ReadAssociateWindowId : Preserves (Stays (·.Terminated)) ReadAssociateWindowId :=
  (stays_ReadUINT32.bind fun _ => (Preserves.update fun _ hp => ⟨hp.1, hp.2, hp.3, hp.4⟩).bind fun _ =>
    (stays_CheckRequiredFlags _ _).bind fun _ => stays_ReadUINT32.bind fun _ =>
    (Preserves.update fun _ hp => ⟨hp.1, hp.2, hp.3, hp.4⟩).bind fun _ =>
    (stays_ReadFlaggedSTRING ⟨fun _ hp => hp.1, fun _ _ hp hf => ⟨hf, hp.2, hp.3, hp.4⟩⟩ _ _ _).bind fun _ =>
    (stays_ReadFlaggedSTRING ⟨fun _ hp => hp.2, fun _ _ hp hf => ⟨hp.1, hf, hp.3, hp.4⟩⟩ _ _ _).bind fun _ =>
    (stays_ReadFlaggedSTRING ⟨fun _ hp => hp.3, fun _ _ hp hf => ⟨hp.1, hp.2, hf, hp.4⟩⟩ _ _ _).bind fun _ =>
    stays_ReadFlaggedSTRING ⟨fun _ hp => hp.4, fun _ _ hp hf => ⟨hp.1, hp.2, hp.3, hf⟩⟩ _ _ _).onCopy

/-! ## The loop -/

/-- The turns that read a header. -/
def Received.headers (r : Received W) : List Round := r.rounds.filter (·.header.isSome)

/-- From any position, with a turn allowed for each byte: every turn but the last takes eight bytes, and the last
does too if it read a header. -/
theorem receiveLoop_spec (os : OS W) {fuel : Nat} {s : Reading (Machine W)} (hs : s.Valid) (hfuel : s.len ≤ fuel) :
    (receiveLoop os fuel s).rounds.length ≤ (s.len + 7) / 8 ∧ (receiveLoop os fuel s).headers.length ≤ s.len / 8 ∧
      (receiveLoop os fuel s).hr ≠ .outOfFuel ∧ (receiveLoop os fuel s).hr ≠ .failed .fault := by
  induction fuel generalizing s with
  | zero =>
    rw [receiveLoop_stop 0 fun h => h.1 (by omega)]
    exact ⟨Nat.zero_le _, Nat.zero_le _, by simp, by simp⟩
  | succ fuel ih =>
    by_cases hr : Running s
    · have hlen : s.len ≠ 0 := hr.1
      rw [receiveLoop_succ fuel hr]
      cases hh : readHeader s with
      | error x t =>
        -- fewer than eight bytes are left: a turn without a header
        obtain ⟨e, rfl, -⟩ := local_readHeader.of_error hs hh
        exact ⟨by simp only [List.length_singleton]; omega, Nat.zero_le _, by simp, by simp⟩
      | ok h t =>
        obtain ⟨ht, hbuf, hcur⟩ := readHeader_spec hs hh
        have hheader : 1 * 8 ≤ s.len := by
          simp only [Reading.Valid] at hs ht
          rw [hbuf] at ht
          omega
        cases hd : dispatch os h t with
        | error x u =>
          obtain ⟨e, rfl, -⟩ := (local_dispatch os h).of_error ht hd
          simp only [hd]
          exact ⟨by simp only [List.length_singleton]; omega, (Nat.le_div_iff_mul_le (by decide)).2 hheader, by simp, by simp⟩
        | ok _ u =>
          obtain ⟨hu, hbuf', hcur'⟩ := turn_spec os hs hh hd
          -- header and handler took eight bytes at least
          have hleft : u.len + 8 ≤ s.len := by
            simp only [Reading.Valid] at hs hu
            rw [hbuf'] at hu
            omega
          obtain ⟨hrounds, hheaders, hend, hfault⟩ := ih hu (by omega)
          simp only [hd]
          refine ⟨by simp only [List.length_cons]; omega, ?_, hend, hfault⟩
          simp only [Received.headers, List.filter_cons, Option.isSome_some, if_true, List.length_cons] at hheaders ⊢
          omega
    · rw [receiveLoop_stop _ hr]
      exact ⟨Nat.zero_le _, Nat.zero_le _, by simp, by simp⟩

/-! ## The member -/

/-- The strings of the last CAPS message are terminated. -/
def CapsTerminated (m : Machine W) : Prop := m.this.m_serverCaps.Terminated

theorem CapsTerminated.same {m m' : Machine W} (h : CapsTerminated m)
    (hs : m'.this.m_serverCaps = m.this.m_serverCaps) : CapsTerminated m' := by
  rw [CapsTerminated, hs]
  exact h

theorem stays_of_frame {R : Sys W → Sys W → Prop} {T : WSLDVCCallback → WSLDVCCallback → Prop} {m m' : Machine W}
    (h : Frame T R m m') (hT : T m.this m'.this → m'.this.m_serverCaps = m.this.m_serverCaps) :
    Stays CapsTerminated m m' := fun hm => hm.same (hT h.1)

theorem stays_readCaps : Preserves (Stays CapsTerminated) (readCaps : Handler W _) :=
  Preserves.onCopy fun m => Outcome.onPart (stays_ReadAppListServerCaps m.this.m_serverCaps) (fun _ _ h => h)
    fun _ _ _ h => h

/-- Behind the reader OnCaps does not touch what was read. -/
theorem stays_OnCaps (os : OS W) : Preserves (Stays CapsTerminated) (OnCaps os) := by
  have hR := anyCall os
  refine stays_readCaps.bind fun _ => ((frame_OnCapsProvider hR.toSilent).mono fun _ _ h => ?_).bind fun _ =>
    ((frame_OnCapsPaths hR.toSilent hR.CreateDirectoryW).mono fun _ _ h => ?_).bind fun _ =>
      ((frame_OnCapsEnvironment hR.toSilent).mono fun _ _ h => ?_).bind fun _ =>
        (frame_OnCapsReply hR.ChannelWrite).mono fun _ _ h => ?_
  all_goals exact stays_of_frame h (·.map (·.m_serverCaps) fun _ => rfl)

/-- One message, whatever its bytes are. -/
theorem stays_receive (os : OS W) : Preserves (Stays CapsTerminated) (receive os) := fun m => by
  have hR := anyCall os
  refine outcome_receive os (refl_of (Stays CapsTerminated) m) (stays_OnCaps os m) (fun _ => ?_) (fun _ => ?_) fun _ => ?_
  -- the update
  · have hkeep : ∀ m' : Machine W, Frame (SameOn noDb) (Appends fun _ => True) m m' → Stays CapsTerminated m m' :=
      fun _ h => stays_of_frame h (·.map (·.m_serverCaps) fun _ => rfl)
    exact (frame_OnUpdateAppList hR (appends_emit trivial)).mono (fun _ => hkeep) fun _ => hkeep
  -- the deletion
  · have hkeep : ∀ m' : Machine W, Frame (SameOn noDb) (Appends fun _ => True) m m' → Stays CapsTerminated m m' :=
      fun _ h => stays_of_frame h (·.map (·.m_serverCaps) fun _ => rfl)
    exact (frame_OnDeleteAppList hR.DeleteFileW (fun _ _ _ => appends_emit trivial) m).mono (fun _ => hkeep)
      fun _ => hkeep
  -- the association
  · have hkeep : ∀ m' : Machine W, Frame Eq (Appends fun _ => True) m m' → Stays CapsTerminated m m' :=
      fun _ h => stays_of_frame h fun hm => hm ▸ rfl
    exact (frame_OnAssociateWindowId hR.toSilent hR.SetValue m).mono (fun _ => hkeep) fun _ => hkeep

theorem terminated_serverCaps {os : OS W} {m : Machine W} (h : Reachable os anyMessage m) : CapsTerminated m :=
  h.invariant (fun _ => ⟨terminated_zero, terminated_zero⟩) (fun s _ _ _ hi => (stays_receive os).final s hi)
    fun _ _ hc hi => hi.same ((members_OnClose hc).map (·.m_serverCaps) fun _ => rfl)

/-! ## Every buffer -/

/-- What a call of `OnDataReceived` on `pBuffer` is safe from, in the state `m`. -/
structure DecodesSafely (os : OS W) (pBuffer : List BYTE) (m : Machine W) : Prop where
  /-- The loop ends. Each turn reads a header, but for a last one that may fail to. -/
  ends : (OnDataReceived os pBuffer m).hr ≠ .outOfFuel
  rounds : (OnDataReceived os pBuffer m).rounds.length ≤ (pBuffer.length + 7) / 8
  headers : (OnDataReceived os pBuffer m).headers.length ≤ pBuffer.length / 8
  /-- Nothing is read outside the buffer or written outside an array. -/
  noFault : (OnDataReceived os pBuffer m).hr ≠ .failed .fault
  /-- Between the turns what was read and what is left make up the buffer. -/
  accounted : ∀ s, LoopState os pBuffer m s → s.buf = pBuffer ∧ s.cur + s.len = pBuffer.length
  /-- A reader stays inside the buffer, and one that fails leaves cursor and count alone. -/
  header : Guarded ReadAppListHeader
  caps : Guarded ReadAppListServerCaps
  update : Guarded ReadAppListUpdate
  icon : Guarded (ReadAppListIconData os)
  delete : Guarded ReadAppListDelete
  associate : Guarded ReadAssociateWindowId
  /-- Strings that were read are terminated, and the icon's bits lie in the block allocated for them. -/
  strings : ReadsStrings os
  /-- On every path, a failed one too, terminated fields stay terminated. -/
  stays : Preserves (Stays (·.Terminated)) ReadAppListServerCaps ∧ Preserves (Stays (·.Terminated)) ReadAppListUpdate ∧
    Preserves (Stays (·.Terminated)) ReadAppListDelete ∧ Preserves (Stays (·.Terminated)) ReadAssociateWindowId
  serverCaps : (OnDataReceived os pBuffer m).machine.this.m_serverCaps.Terminated

/-- In every reachable state every buffer is decoded safely. -/
theorem decodes_safely (os : OS W) {m : Machine W} (h : Reachable os anyMessage m) (pBuffer : List BYTE) :
    DecodesSafely os pBuffer m := by
  have hloop := receiveLoop_spec os (s := ⟨pBuffer, 0, pBuffer.length, m⟩) (Nat.zero_add _)
    (Nat.le_refl pBuffer.length)
  have hcall : (OnDataReceived os pBuffer m).rounds.length ≤ (pBuffer.length + 7) / 8 ∧
      (OnDataReceived os pBuffer m).headers.length ≤ pBuffer.length / 8 ∧
      (OnDataReceived os pBuffer m).hr ≠ .outOfFuel ∧ (OnDataReceived os pBuffer m).hr ≠ .failed .fault := by
    unfold OnDataReceived
    split
    · exact ⟨Nat.zero_le _, Nat.zero_le _, by simp, by simp⟩
    · exact hloop
  exact {
    ends := hcall.2.2.1
    rounds := hcall.1
    headers := hcall.2.1
    noFault := hcall.2.2.2
    accounted := fun s hs => ⟨hs.valid.2, hs.valid.2 ▸ hs.valid.1⟩
    header := guarded_onCopy local_ReadAppListHeader
    caps := guarded_onCopy local_ReadAppListServerCaps
    update := guarded_onCopy local_ReadAppListUpdate
    icon := guarded_onCopy (local_ReadAppListIconData os)
    delete := guarded_onCopy local_ReadAppListDelete
    associate := guarded_onCopy local_ReadAssociateWindowId
    strings := readsStrings os
    stays := ⟨stays_ReadAppListServerCaps, stays_ReadAppListUpdate, stays_ReadAppListDelete, stays_ReadAssociateWindowId⟩
    serverCaps := terminated_serverCaps (reachable_OnDataReceived pBuffer (fun _ _ => trivial) h) }

/-- Two messages and a third one that is cut off in a string. -/
def cutBuffer : List BYTE :=
  updateMessage 0 (L "a") (L "foo") ++ deleteMessage (L "a") ++ (updateMessage 0 (L "b") (L "bar")).take 17

theorem decodes_safely_on_disk : (OnDataReceived diskOS cutBuffer (runOn [] [capsMessage (L "U")])).headers.length = 3 ∧
    DecodesSafely diskOS cutBuffer (runOn [] [capsMessage (L "U")]) :=
  ⟨by decide +kernel, decodes_safely diskOS (reachable_runOn _ _) _⟩

/-- One byte takes a turn, which finds no header. -/
theorem one_byte_takes_a_turn : ¬ ∀ (pBuffer : List BYTE) (m : Machine Disk), Reachable diskOS anyMessage m →
    (OnDataReceived diskOS pBuffer m).rounds.length ≤ pBuffer.length / 8 := fun h =>
  absurd (h [0] (.fresh []) (.fresh [])) (by decide +kernel)

end Wslg
